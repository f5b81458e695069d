import Dockboard.Proofs.Screen.Frame
import Dockboard.Proofs.Session.Selection

set_option autoImplicit false

/-! # The colours of the body

Text stands on the screen in the colours that have been set last, so a line is told by its pieces of
text, each with its colours. The body of the screen is where the rows of the active table stand, and
one of its lines is in the colours of the selection.

    inkedLines ink begun draws   the lines that instructions end
    Paints draws lines           instructions end these lines, and leave no colours behind
    body theme s                 the lines of a frame that belong to the body

What a prompt puts on top of the body comes after all lines that are ended, and is no part of it.
-/

namespace Dockboard.Screen

open Dockboard.Text Draw

/-- The colours of text. -/
structure Ink where
  back : Color := .unset
  fore : Color := .unset
  deriving DecidableEq, Repr

/-- A line in pieces, each of them in colours of its own. -/
abbrev InkedLine := List (Ink × List Char)

namespace Draw

/-- The colours after an instruction. -/
def dye (ink : Ink) : Draw → Ink
  | .back color => { ink with back := color }
  | .fore color => { ink with fore := color }
  | .plain | .resetColors => {}
  | _ => ink

/-- The lines that instructions end, the first of which begins with the pieces in `begun`. -/
def inkedLines (ink : Ink) (begun : InkedLine) : List Draw → List InkedLine
  | [] => []
  | .text s :: rest => inkedLines ink (begun ++ [(ink, s)]) rest
  | .newline :: rest => begun :: inkedLines ink [] rest
  | .moveTo _ _ :: rest => inkedLines ink [] rest
  | d :: rest => inkedLines (dye ink d) begun rest

/-- The pieces of text in instructions within a line. -/
def pieces (ink : Ink) : List Draw → InkedLine
  | [] => []
  | .text s :: rest => (ink, s) :: pieces ink rest
  | d :: rest => pieces (dye ink d) rest

/-- Instructions within a line add pieces to it. -/
theorem inkedLines_inline {draws : List Draw} (h : Inline draws) (ink : Ink) (begun : InkedLine)
    (rest : List Draw) : inkedLines ink begun (draws ++ rest) =
      inkedLines (draws.foldl dye ink) (begun ++ pieces ink draws) rest := by
  induction draws generalizing ink begun with
  | nil => simp [pieces]
  | cons d draws ih =>
      obtain ⟨hd, hrest⟩ := List.forall_mem_cons.mp h
      cases d with
      | newline => cases hd
      | moveTo x y => cases hd
      | _ => simp [inkedLines, pieces, dye, ih hrest]

/-- Instructions that begin and end in the terminal's own colours end some lines. -/
def Paints (draws : List Draw) (lines : List InkedLine) : Prop :=
  ∀ rest, inkedLines {} [] (draws ++ rest) = lines ++ inkedLines {} [] rest

namespace Paints

theorem nil : Paints [] [] := fun _ => rfl

theorem append {draws more : List Draw} {lines others : List InkedLine} (h : Paints draws lines)
    (h' : Paints more others) : Paints (draws ++ more) (lines ++ others) := by
  intro rest
  rw [List.append_assoc, h, h', List.append_assoc]

theorem flatMap {α : Type} {f : α → List Draw} {g : α → InkedLine}
    (h : ∀ a, Paints (f a) [g a]) (xs : List α) : Paints (xs.flatMap f) (xs.map g) := by
  induction xs with
  | nil => exact nil
  | cons a xs ih =>
      rw [List.flatMap_cons, List.map_cons]
      exact (h a).append ih

/-- A line after which the colours are given up. -/
theorem line {draws : List Draw} (h : Inline draws) :
    Paints (draws ++ [.resetColors, .newline]) [pieces {} draws] := by
  intro rest
  rw [List.append_assoc, inkedLines_inline h]
  rfl

end Paints

theorem blankLines_paints (count : Nat) : Paints (blankLines count) (List.replicate count []) := by
  induction count with
  | zero => exact .nil
  | succ count ih =>
      have hblank : Paints [.newline] [[]] := fun _ => rfl
      exact hblank.append ih

end Draw

/-! ## The parts above the body -/

theorem header_paints (theme : Theme) (summary : Option DaemonSummary) (width : Nat) :
    Paints (header theme summary width)
      [[({ fore := theme.muted }, fit width (headerText summary))]] :=
  fun _ => rfl

/-- The tab bar is a line in colours of its own. -/
theorem tabBar_paints (theme : Theme) (current : View) (extra : Option (List Char))
    (counter : List Char) (width : Nat) :
    ∃ line, Paints (tabBar theme current extra counter width) [line] := by
  obtain ⟨titles, used, htitles, hbar⟩ := tabBar_eq theme current extra counter
    (Nat.le_add_right width (byteLength counter + 1))
  have hcounted : Inline [.text (List.replicate (width - (used + counter.length)) ' '),
      .fore theme.muted, .text counter] := by
    simp [Inline, isInline]
  have hline := Paints.line (htitles.within.append hcounted)
  rw [hbar]
  simp only [List.append_assoc, List.cons_append, List.nil_append] at hline ⊢
  exact ⟨_, hline⟩

/-! ## The table -/

/-- The colours of a selected line. -/
def Theme.selectionInk (theme : Theme) : Ink := ⟨theme.selectionBack, theme.selectionFore⟩

/-- A part of the line at least is in the colours of a selected line. -/
def InSelection (theme : Theme) (line : InkedLine) : Prop :=
  ∃ piece ∈ line, piece.1 = theme.selectionInk

/-- The colours of a line of a table. -/
def lineInk (theme : Theme) (line : TableLine) : Ink :=
  if line.selected then theme.selectionInk
  else if line.heading then { fore := theme.accent }
  else {}

/-- A line of a table, as it looks. -/
def inkedRow (theme : Theme) (width : Nat) (line : TableLine) : InkedLine :=
  [(lineInk theme line, fit width line.text)]

theorem tableLine_paints (theme : Theme) (width : Nat) (line : TableLine) :
    Paints (tableLine theme width line) [inkedRow theme width line] := by
  unfold tableLine inkedRow lineInk selectable
  cases line.selected with
  | true =>
      simp only [Bool.not_true, Bool.and_false, Bool.false_eq_true, if_false, if_true]
      exact fun _ => rfl
  | false =>
      cases line.heading <;>
        simp only [Bool.not_false, Bool.and_true, Bool.false_eq_true, if_false, if_true] <;>
        exact fun _ => rfl

/-- The lines of a table that are not blank, as they look. -/
def inkedRows (theme : Theme) (view : TableView) (width height : Nat) (message : List Char) :
    List InkedLine :=
  if view.lines.isEmpty && !message.isEmpty then [[({ fore := theme.muted }, fit width message)]]
  else (view.lines.take height).map (inkedRow theme width)

theorem length_inkedRows_le (theme : Theme) (view : TableView) (width : Nat) {height : Nat}
    (h : 1 ≤ height) (message : List Char) :
    (inkedRows theme view width height message).length ≤ height := by
  unfold inkedRows
  split
  · exact h
  · rw [List.length_map]
    exact List.length_take_le _ _

/-- **The table**: a header, and below it as many lines as it is given. -/
theorem table_paints (theme : Theme) (view : TableView) (width : Nat) {height : Nat}
    (h : 1 ≤ height) (message : List Char) : ∃ blanks,
      Paints (table theme view width height message)
        ([[(({} : Ink), fit width view.header)]] ++
          inkedRows theme view width height message ++ List.replicate blanks []) ∧
      (inkedRows theme view width height message).length + blanks = height := by
  have hheader : Paints ([.bold] ++ Draw.line width view.header ++ [.plain])
      [[({}, fit width view.header)]] :=
    fun _ => rfl
  have hle := length_inkedRows_le theme view width h message
  refine ⟨height - (inkedRows theme view width height message).length, ?_, by omega⟩
  unfold table inkedRows
  by_cases hnotice : (view.lines.isEmpty && !message.isEmpty) = true
  · obtain ⟨hempty, hmessage⟩ : view.lines = [] ∧ message ≠ [] := by
      simpa using hnotice
    have hline : Paints ([.fore theme.muted] ++ Draw.line width message ++ [.resetColors])
        [[({ fore := theme.muted }, fit width message)]] :=
      fun _ => rfl
    have hall := (hheader.append hline).append (blankLines_paints (height - 1))
    simpa [hempty, hmessage] using hall
  · have hrows := Paints.flatMap (tableLine_paints theme width) (view.lines.take height)
    have hall := (hheader.append hrows).append
      (blankLines_paints (height - (view.lines.take height).length))
    simp only [hnotice, if_false, List.isEmpty_nil, if_true, List.append_nil, Nat.zero_add,
      Bool.false_eq_true, List.length_map, List.length_take, Nat.min_comm height] at hall ⊢
    exact hall

/-! ## The body -/

/-- The lines above the body: the header, if it is shown, the tab bar, and the header of the
table. -/
def headRows (s : State) : Nat := (if s.showHeader then 1 else 0) + 2

/-- The lines of the body, as they look. -/
def body (theme : Theme) (s : State) : List InkedLine :=
  ((inkedLines {} [] (frame theme s)).drop (headRows s)).take s.bodyHeight

/-- **The body** holds the lines of the active table, and blank ones below. -/
theorem body_eq (theme : Theme) {s : State} (hwidth : minColumns ≤ s.width)
    (hheight : minRows ≤ s.height) (hlayer : ∀ layer, s.layer ≠ some (.pager layer)) :
    ∃ blanks, body theme s =
        inkedRows theme (s.activeTable.view s.format) s.width s.bodyHeight (emptyNotice s) ++
          List.replicate blanks [] ∧
      (body theme s).length = s.bodyHeight := by
  obtain ⟨bar, hbar⟩ := tabBar_paints theme s.view (extraTitle s) (counter s) s.width
  obtain ⟨blanks, htable, hlength⟩ := table_paints theme (s.activeTable.view s.format) s.width
    s.bodyHeight_pos (emptyNotice s)
  generalize hrows : inkedRows theme (s.activeTable.view s.format) s.width s.bodyHeight
    (emptyNotice s) = rows at htable hlength
  obtain ⟨above, habove, hcount⟩ : ∃ above : List InkedLine,
      Paints (if s.showHeader then header theme s.summary s.width else []) above ∧
        above.length = if s.showHeader then 1 else 0 := by
    split
    · exact ⟨_, header_paints theme s.summary s.width, rfl⟩
    · exact ⟨_, .nil, rfl⟩
  have hall := (habove.append hbar).append htable
  -- What comes below the table, and what is put on top, comes later.
  obtain ⟨later, hpage⟩ : ∃ later, page theme s =
      (if s.showHeader then header theme s.summary s.width else []) ++
        tabBar theme s.view (extraTitle s) (counter s) s.width ++
        table theme (s.activeTable.view s.format) s.width s.bodyHeight (emptyNotice s) ++
        later := by
    unfold page
    split
    · next layer hpager => exact absurd hpager (hlayer layer)
    · simp only [viewPage, List.append_assoc]
      exact ⟨_, rfl⟩
    · simp only [viewPage, List.append_assoc]
      exact ⟨_, rfl⟩
  have hlines : inkedLines {} [] (frame theme s) =
      (above ++ [bar] ++ [[(({} : Ink), fit s.width (s.activeTable.view s.format).header)]]) ++
        ((rows ++ List.replicate blanks []) ++ inkedLines {} [] later) := by
    have hlarge : isLargeEnough s.width s.height = true := by
      simp [isLargeEnough, hwidth, hheight]
    have horigin : inkedLines {} [] (frame theme s) = inkedLines {} [] (page theme s) := by
      rw [frame, if_pos hlarge]
      rfl
    rw [horigin, hpage, hall]
    simp only [List.append_assoc, List.cons_append, List.nil_append]
  have hhead (head : InkedLine) : (above ++ [bar] ++ [head]).length = headRows s := by
    rw [headRows, ← hcount]
    simp
  have hbody : (rows ++ List.replicate blanks []).length = s.bodyHeight := by
    rw [List.length_append, List.length_replicate, hlength]
  have heq : body theme s = rows ++ List.replicate blanks [] := by
    rw [body, hlines, List.drop_left' (hhead _), List.take_left' hbody]
  exact ⟨blanks, heq, heq ▸ hbody⟩

/-! ## The selected row -/

/-- The line at a place has a text in the colours of a selected line, and no other line has these
colours, not even in part. -/
structure OneSelected (theme : Theme) (lines : List InkedLine) (place : Nat) (text : List Char) :
    Prop where
  at_place : lines[place]? = some [(theme.selectionInk, text)]
  unique : ∀ (i : Nat) line, lines[i]? = some line → InSelection theme line → i = place

section Selection

variable {theme : Theme}

theorem InSelection.ink {ink : Ink} {text : List Char} (h : InSelection theme [(ink, text)]) :
    ink = theme.selectionInk := by
  obtain ⟨piece, hpiece, hink⟩ := h
  rw [List.mem_singleton.mp hpiece] at hink
  exact hink

/-- Without a background there is no selection. -/
theorem ne_selectionInk (htheme : theme.selectionBack ≠ .unset) (fore : Color) :
    ({ fore } : Ink) ≠ theme.selectionInk := by
  intro h
  exact htheme (congrArg Ink.back h).symm

theorem InSelection.selected (htheme : theme.selectionBack ≠ .unset) {width : Nat}
    {line : TableLine} (h : InSelection theme (inkedRow theme width line)) :
    line.selected = true := by
  have hink := h.ink
  unfold lineInk at hink
  split at hink
  · next hselected => exact hselected
  · split at hink <;> exact absurd hink (ne_selectionInk htheme _)

theorem not_inSelection_blank : ¬ InSelection theme [] := by
  rintro ⟨piece, hpiece, -⟩
  cases hpiece

/-- No line is selected where there are no rows. -/
theorem not_inSelection_of_empty (htheme : theme.selectionBack ≠ .unset) {view : TableView}
    (hempty : view.lines = []) (width height : Nat) (message : List Char) (blanks : Nat) :
    ∀ line ∈ inkedRows theme view width height message ++ List.replicate blanks [],
      ¬ InSelection theme line := by
  refine List.forall_mem_append.mpr ⟨?_, ?_⟩
  · unfold inkedRows
    split
    · exact List.forall_mem_singleton.mpr fun h => ne_selectionInk htheme _ h.ink
    · rw [hempty, List.take_nil]
      exact List.forall_mem_nil _
  · intro line hline
    rw [List.eq_of_mem_replicate hline]
    exact not_inSelection_blank

/-- The line of the selected row is the only one in the colours of a selected line. -/
theorem oneSelected_of_windowed (htheme : theme.selectionBack ≠ .unset) {R : Type}
    (format : RowFormat R) {t : Table R} (h : t.Windowed) {row : R} (hrow : t.selected? = some row)
    (width : Nat) (message : List Char) (blanks : Nat) :
    OneSelected theme
      (inkedRows theme (t.view format) width t.height message ++ List.replicate blanks [])
      (t.cursor - t.offset) (fit width (t.lineText format row)) := by
  have hne : t.shown ≠ [] := by
    intro hnil
    rw [Table.selected?, hnil] at hrow
    cases hrow
  obtain ⟨i, line, hline, hselected, hplace, hunique⟩ := h.marked format hne
  obtain ⟨htext, hcursor⟩ : line.text = t.lineText format row ∧ t.offset + i = t.cursor := by
    rw [Table.getElem?_lines] at hline
    split at hline
    · rw [hplace, hrow] at hline
      cases hline
      exact ⟨rfl, beq_iff_eq.mp hselected⟩
    · cases hline
  have hi : t.cursor - t.offset = i := by omega
  have hlines : inkedRows theme (t.view format) width t.height message =
      (t.view format).lines.map (inkedRow theme width) := by
    have hsome : (t.view format).lines ≠ [] := List.ne_nil_of_mem (List.mem_of_getElem? hline)
    have hle : (t.view format).lines.length ≤ t.height := by
      rw [Table.length_lines format h]
      exact Nat.min_le_left _ _
    rw [inkedRows, List.take_of_length_le hle, if_neg (by simp [hsome])]
  rw [hlines, hi]
  refine ⟨?_, fun j other hother hmarked => ?_⟩
  · have hlt : i < ((t.view format).lines.map (inkedRow theme width)).length := by
      rw [List.length_map]
      exact (List.getElem?_eq_some_iff.mp hline).1
    rw [List.getElem?_append_left hlt, List.getElem?_map, hline, Option.map_some, inkedRow, lineInk,
      if_pos hselected, htext]
  · rw [List.getElem?_append] at hother
    split at hother
    · rw [List.getElem?_map] at hother
      obtain ⟨line', hline', rfl⟩ := Option.map_eq_some_iff.mp hother
      exact hunique j line' hline' (hmarked.selected htheme)
    · rw [List.eq_of_mem_replicate (List.mem_of_getElem? hother)] at hmarked
      exact absurd hmarked not_inSelection_blank

end Selection

/-- **The selected row.** Whatever has happened to a session, on a screen that is large enough and
without a pager the active table is as high as the body. If it shows any rows, one of them is
selected, one line of the body is in the colours of a selected line, and that is the line of this
row, as far below the first as its place is from that of the first; the keys that act on a row act
on it. If it shows none, no line is in these colours. (All that is asked of a theme is that it has a
background for selected lines.) -/
theorem selected_row_shown (theme : Theme) (htheme : theme.selectionBack ≠ .unset)
    (config : Config) (now : Int) (events : List Event) :
    let s := (State.new config now).run events
    minColumns ≤ s.width → minRows ≤ s.height → (∀ layer, s.layer ≠ some (.pager layer)) →
      s.activeTable.height = s.bodyHeight ∧ (body theme s).length = s.bodyHeight ∧
      (s.activeTable.shown = [] → ∀ line ∈ body theme s, ¬ InSelection theme line) ∧
      (s.activeTable.shown ≠ [] → ∃ row, s.activeTable.selected? = some row ∧
        OneSelected theme (body theme s) (s.activeTable.cursor - s.activeTable.offset)
          (fit s.width (s.activeTable.lineText s.format row)) ∧
        (s.layer = none → s.ActsOn row)) := by
  intro s hwidth hheight hlayer
  obtain ⟨hwindowed, hfits⟩ : s.activeTable.Fills s.bodyHeight :=
    State.run_fitted config now events s.view
  obtain ⟨blanks, hbody, hlength⟩ := body_eq theme hwidth hheight hlayer
  refine ⟨hfits, hlength, fun hnil => ?_, fun hne => ?_⟩
  · have hempty : (s.activeTable.view s.format).lines = [] := by
      rw [← List.length_eq_zero_iff, Table.length_lines _ hwindowed, hnil, List.length_nil,
        Nat.min_zero]
    rw [hbody]
    exact not_inSelection_of_empty htheme hempty _ _ _ _
  · obtain ⟨row, hselected, -⟩ := hwindowed.selected hne
    refine ⟨row, hselected, ?_, fun hbare => State.acts_on_selected hbare hselected⟩
    rw [hbody, ← hfits]
    exact oneSelected_of_windowed htheme s.format hwindowed hselected _ _ _

/-- On the smallest screen the second of two containers is selected by a key, and its line is the
only one in grey. -/
theorem selected_row_shown_of_second :
    let web : Row := .container { id := "f00", name := "web" }
    let db : Row := .container { id := "bad", name := "db" }
    let s := (State.new {} 0).run [.begin, .input (.resize 60 10),
      .input (.loaded .containers none [web, db]), .input (.key { code := .down })]
    s.width = 60 ∧ s.height = 10 ∧ s.activeTable.height = 5 ∧
      ∃ row, s.activeTable.selected? = some row ∧ row.id? = some "bad" ∧ s.ActsOn row ∧
        OneSelected {} (body {} s) 1 (fit 60 (s.activeTable.lineText s.format row)) := by
  intro web db s
  have hwidth : s.width = 60 := by decide +kernel
  have hheight : s.height = 10 := by decide +kernel
  have hshown : s.activeTable.shown = [web, db] := by decide +kernel
  have hlayer : s.layer = none := by decide +kernel
  obtain ⟨hfits, -, -, hrow⟩ := selected_row_shown {} nofun {} 0
    [.begin, .input (.resize 60 10), .input (.loaded .containers none [web, db]),
      .input (.key { code := .down })] (Nat.le_of_eq hwidth.symm) (Nat.le_of_eq hheight.symm)
    (by
      intro layer hpager
      cases hlayer.symm.trans hpager)
  obtain ⟨row, hselected, hone, hacts⟩ := hrow (by
    intro hnil
    cases hshown.symm.trans hnil)
  have hsecond : s.activeTable.selected? = some db := by decide +kernel
  obtain rfl : db = row := Option.some.inj (hsecond.symm.trans hselected)
  have hplace : s.activeTable.cursor - s.activeTable.offset = 1 := by decide +kernel
  rw [hwidth, hplace] at hone
  exact ⟨hwidth, hheight, by decide +kernel, db, hselected, by decide +kernel, hacts hlayer, hone⟩

end Dockboard.Screen
