import Dockboard.Proofs.Screen.Lines
import Dockboard.Proofs.Screen.Marking
import Dockboard.Proofs.Session.Background
import Dockboard.Proofs.Session.Menus
import Dockboard.Screen.Frame
import Mathlib.Data.Nat.Digits.Defs

set_option autoImplicit false

/-! # The lines of a frame

The height of the screen is divided once, when the tables and the pager are fitted to it, and spent
line by line by the parts of a page. What they write adds up to the height:

    header        1, if it is shown          title        1
    tab bar       1                          content      height - 2
    table         1 + bodyHeight             footer       1
    status        1
    footer        1

and each line is as wide as the screen, or blank. Only the tab bar has to be looked at for that: it
reckons the room for its counter in bytes, of which there are no fewer than characters
(`length_le_byteLength`). What stands on top lies inside the screen, because a menu has few items
(`run_offersShort`) and is no wider than the screen.
-/

namespace Dockboard.Screen

open Dockboard.Text Draw

/-! ## The tab bar -/

theorem length_le_byteLength (s : List Char) : s.length ≤ byteLength s := by
  induction s with
  | nil => exact Nat.le_refl 0
  | cons c s ih =>
      have hpos := Char.utf8Size_pos c
      simp only [List.length_cons, byteLength]
      omega

/-- Instructions within a line lead from column `used` to column `total`, and not beyond column
`room` unless they write nothing. -/
structure Reaches (draws : List Draw) (used total room : Nat) : Prop where
  within : Inline draws
  total_eq : used + (spelled draws).length = total
  total_le : total = used ∨ total ≤ room

theorem Reaches.nil (used room : Nat) : Reaches [] used used room :=
  ⟨.nil, rfl, Or.inl rfl⟩

theorem Reaches.append {draws more : List Draw} {used middle total room : Nat}
    (h : Reaches draws used middle room) (h' : Reaches more middle total room) :
    Reaches (draws ++ more) used total room := by
  refine ⟨h.within.append h'.within, ?_, ?_⟩
  · rw [spelled_append, List.length_append, ← Nat.add_assoc, h.total_eq, h'.total_eq]
  · rcases h'.total_le with hsame | hle
    · rw [hsame]
      exact h.total_le
    · exact Or.inr hle

/-- Tabs are added as long as there is room for the next one. -/
theorem tabs_reach (theme : Theme) (current : View) {reserved width room : Nat}
    (hroom : width ≤ room + reserved) (used : Nat) (views : List (View × Nat)) :
    Reaches (tabs theme current reserved width used views).1 used
      (tabs theme current reserved width used views).2 room := by
  induction views generalizing used with
  | nil => exact .nil used room
  | cons entry rest ih =>
      obtain ⟨view, number⟩ := entry
      unfold tabs
      by_cases hfull : width < used + (tabLabel number view).length + reserved
      · simp only [if_pos hfull]
        exact .nil used room
      · simp only [if_neg hfull]
        have hmore := ih (used + (tabLabel number view).length)
        refine Reaches.append ⟨?_, ?_, ?_⟩ hmore
        · split <;> simp [Inline, isInline]
        · split <;> simp [spelling]
        · exact Or.inr (by omega)

theorem extraTab_reaches (theme : Theme) (extra : Option (List Char)) {reserved width room : Nat}
    (hroom : width + 1 ≤ room + reserved) (used : Nat) :
    Reaches (extraTab theme extra reserved width used).1 used
      (extraTab theme extra reserved width used).2 room := by
  unfold extraTab
  split
  · exact .nil used room
  · next title =>
    by_cases hspace : 3 < width - (used + reserved)
    · simp only [if_pos hspace]
      have hlabel := length_ellipsize_le (width - (used + reserved)) (' ' :: title ++ [' '])
      refine ⟨by simp [Inline, isInline], ?_, Or.inr ?_⟩
      · simp [spelling]
        omega
      · simp only [List.cons_append] at hlabel ⊢
        omega
    · simp only [if_neg hspace]
      exact .nil used room

/-- The tab bar: tabs that leave room for the counter, the counter, and the end of the line. -/
theorem tabBar_eq (theme : Theme) (current : View) (extra : Option (List Char))
    (counter : List Char) {width room : Nat} (hroom : width ≤ room + (byteLength counter + 1)) :
    ∃ titles used, Reaches titles 0 used room ∧ tabBar theme current extra counter width =
      titles ++ [.text (List.replicate (width - (used + counter.length)) ' '), .fore theme.muted,
        .text counter, .resetColors] ++ [.newline] := by
  have hnumbered := tabs_reach theme current hroom 0 (View.numbered.zipIdx 1)
  generalize htabs : tabs theme current (byteLength counter + 1) width 0
    (View.numbered.zipIdx 1) = numbered at hnumbered
  have hroom' : width + 1 ≤ room + (byteLength counter + 2) := by omega
  have hfurther := extraTab_reaches theme extra hroom' numbered.2
  generalize hextra : extraTab theme extra (byteLength counter + 2) width numbered.2 = further
    at hfurther
  refine ⟨_, _, hnumbered.append hfurther, ?_⟩
  unfold tabBar
  simp only [htabs, hextra, List.append_assoc, List.cons_append, List.nil_append]

/-- **The tab bar** is as wide as the screen, as long as the counter fits on it. -/
theorem tabBar_writes (theme : Theme) (current : View) (extra : Option (List Char))
    {counter : List Char} {width : Nat} (hcounter : counter.length ≤ width) :
    (spelled (tabBar theme current extra counter width)).length = width ∧
      WritesLines (tabBar theme current extra counter width)
        [spelled (tabBar theme current extra counter width)] := by
  have hbytes := length_le_byteLength counter
  -- Up to here the counter's bytes and a blank have room behind the tabs, if there are any.
  obtain ⟨room, hroom, hbehind⟩ : ∃ room, width ≤ room + (byteLength counter + 1) ∧
      (room = 0 ∨ room + (byteLength counter + 1) ≤ width) :=
    ⟨width - (byteLength counter + 1), by omega, by omega⟩
  obtain ⟨titles, used, htitles, hbar⟩ := tabBar_eq theme current extra counter hroom
  have hcounted : Inline [.text (List.replicate (width - (used + counter.length)) ' '),
      .fore theme.muted, .text counter, .resetColors] := by
    simp [Inline, isInline]
  have hline := WritesLines.line (htitles.within.append hcounted)
  have hbreak : spelled [.newline] = [] := rfl
  rw [hbar, spelled_append, hbreak, List.append_nil]
  refine ⟨?_, hline⟩
  have htotal := htitles.total_eq
  have hle := htitles.total_le
  rw [spelled_append, List.length_append]
  simp only [spelled_cons, spelling, spelled_nil, List.length_append, List.length_replicate,
    List.nil_append, List.append_nil]
  omega

/-! ## The table and the other lines -/

/-- The lines of a table that are not blank: a message in place of rows, or the rows. -/
def tableTexts (view : TableView) (width height : Nat) (message : List Char) :
    List (List Char) :=
  if view.lines.isEmpty && !message.isEmpty then [fit width message]
  else (view.lines.take height).map fun line => fit width line.text

theorem length_tableTexts_le (view : TableView) (width : Nat) {height : Nat} (h : 1 ≤ height)
    (message : List Char) : (tableTexts view width height message).length ≤ height := by
  unfold tableTexts
  split
  · exact h
  · rw [List.length_map]
    exact List.length_take_le _ _

theorem tableTexts_full {view : TableView} {width height : Nat} {message : List Char} :
    ∀ line ∈ tableTexts view width height message, line.length = width := by
  intro line hline
  unfold tableTexts at hline
  split at hline
  · rw [List.mem_singleton.mp hline]
    exact length_fit _ _
  · obtain ⟨row, -, rfl⟩ := List.mem_map.mp hline
    exact length_fit _ _

/-- Instructions that only say how text looks, around some lines. -/
theorem WritesLines.around {before draws after : List Draw} {lines : List (List Char)}
    (hbefore : Inline before ∧ spelled before = []) (h : WritesLines draws lines)
    (hafter : Inline after ∧ spelled after = []) :
    WritesLines (before ++ draws ++ after) lines := by
  have hall := ((WritesLines.styles hbefore.1 hbefore.2).append h).append
    (WritesLines.styles hafter.1 hafter.2)
  rw [List.nil_append, List.append_nil] at hall
  exact hall

theorem tableLine_writes (theme : Theme) (width : Nat) (line : TableLine) :
    WritesLines (tableLine theme width line) [fit width line.text] := by
  unfold tableLine
  split
  · exact WritesLines.around (by simp [Inline, isInline, spelling]) (line_writes width line.text)
      (by simp [Inline, isInline, spelling])
  · exact selectable_writes theme width line.text line.selected

/-- **The table** takes as many lines as it is given, and one for its header. -/
theorem table_writes (theme : Theme) (view : TableView) (width : Nat) {height : Nat}
    (h : 1 ≤ height) (message : List Char) :
    ∃ blanks, WritesLines (table theme view width height message)
        ([fit width view.header] ++ tableTexts view width height message ++
          List.replicate blanks []) ∧
      (tableTexts view width height message).length + blanks = height := by
  have hheader : WritesLines ([.bold] ++ Draw.line width view.header ++ [.plain])
      [fit width view.header] :=
    WritesLines.around (by simp [Inline, isInline, spelling]) (line_writes width view.header)
      (by simp [Inline, isInline, spelling])
  have hrows := WritesLines.flatMap (tableLine_writes theme width) (view.lines.take height)
  have hle := length_tableTexts_le view width h message
  refine ⟨height - (tableTexts view width height message).length, ?_, by omega⟩
  unfold table tableTexts
  by_cases hnotice : (view.lines.isEmpty && !message.isEmpty) = true
  · -- The message takes the place of rows, of which there are none.
    obtain ⟨hempty, hmessage⟩ : view.lines = [] ∧ message ≠ [] := by
      simpa using hnotice
    have hline : WritesLines ([.fore theme.muted] ++ Draw.line width message ++ [.resetColors])
        [fit width message] :=
      WritesLines.around (by simp [Inline, isInline, spelling]) (line_writes width message)
        (by simp [Inline, isInline, spelling])
    have hall := (hheader.append hline).append (blankLines_writes (height - 1))
    simpa [hempty, hmessage] using hall
  · have hall := (hheader.append hrows).append
      (blankLines_writes (height - (view.lines.take height).length))
    simp only [hnotice, if_false, List.isEmpty_nil, if_true, List.append_nil, Nat.zero_add,
      Bool.false_eq_true, List.length_map, List.length_take, Nat.min_comm height] at hall ⊢
    exact hall

theorem header_writes (theme : Theme) (summary : Option DaemonSummary) (width : Nat) :
    WritesLines (header theme summary width) [fit width (headerText summary)] := by
  have hinline : Inline [.fore theme.muted, .text (fit width (headerText summary)),
      .resetColors] := by
    simp [Inline, isInline]
  have hline := WritesLines.line hinline
  simp only [spelled_cons, spelling, List.nil_append, spelled_nil, List.append_nil] at hline
  exact hline

/-- The text of the status line. -/
def statusText (s : State) : List Char :=
  match s.status with
  | some message => message.text.toList
  | none => []

theorem statusLine_writes (theme : Theme) (s : State) :
    WritesLines (statusLine theme s) [fit s.width (statusText s)] := by
  have hstatus (text : List Char) (isError : Bool) :
      WritesLines (status theme text isError s.width) [fit s.width text] :=
    WritesLines.around (by simp [Inline, isInline, spelling]) (line_writes s.width text)
      (by simp [Inline, isInline, spelling])
  unfold statusLine statusText
  cases s.status with
  | none => exact hstatus [] false
  | some message => exact hstatus message.text.toList message.isError

theorem footer_inline (theme : Theme) (text : List Char) (width : Nat) :
    Inline (footer theme text width) ∧ spelled (footer theme text width) = fit width text := by
  simp [footer, Inline, isInline, spelling]

/-! ## The page of a pager -/

theorem stretches_spell (theme : Theme) (color : Color) (parts : List Stretch) :
    Inline (parts.flatMap (Stretch.draws theme color)) ∧
      spelled (parts.flatMap (Stretch.draws theme color)) = parts.flatMap Stretch.text := by
  induction parts with
  | nil => exact ⟨Inline.nil, rfl⟩
  | cons part parts ih =>
      have hpart : Inline (part.draws theme color) ∧
          spelled (part.draws theme color) = part.text := by
        unfold Stretch.draws
        split <;> simp [Inline, isInline, spelling]
      rw [List.flatMap_cons, List.flatMap_cons, spelled_append, hpart.2, ih.2]
      exact ⟨hpart.1.append ih.1, rfl⟩

theorem pagerLine_writes (theme : Theme) (width : Nat) (line : PagerLine) :
    WritesLines (pagerLine theme width line) [fit width line.text] := by
  obtain ⟨parts, hline⟩ := line_written theme width line
  rw [hline.draws]
  split
  · exact line_writes width line.text
  · obtain ⟨hinline, hspelled⟩ := stretches_spell theme (markColor theme line) parts
    have hpad : Inline [.text (List.replicate (width - (line.text.take width).length) ' ')] :=
      List.forall_mem_singleton.mpr rfl
    have hwrites := WritesLines.line (hinline.append hpad)
    rw [spelled_append, hspelled, hline.written.text.eq_of_all] at hwrites
    simpa [spelling, fit, padRight] using hwrites

/-- The lines above the footer of a pager that are not blank. -/
def pagerTexts (p : Pager) (width height : Nat) : List (List Char) :=
  fit width (pagerTitle p) :: (p.view.take (height - 2)).map fun line => fit width line.text

/-- **The page of a pager** takes as many lines as the screen has, the last being its footer. -/
theorem pagerPage_eq (theme : Theme) (p : Pager) (width : Nat) {height : Nat} (h : 2 ≤ height) :
    ∃ upper last blanks, pagerPage theme p width height = upper ++ last ∧
      WritesLines upper (pagerTexts p width height ++ List.replicate blanks []) ∧
      (pagerTexts p width height).length + blanks + 1 = height ∧
      Inline last ∧ spelled last = fit width (pagerFooter p) := by
  have htitle : WritesLines ([.fore (pagerTitleColor theme p), .bold] ++
      Draw.line width (pagerTitle p) ++ [.resetColors, .plain]) [fit width (pagerTitle p)] :=
    WritesLines.around (by simp [Inline, isInline, spelling]) (line_writes _ _)
      (by simp [Inline, isInline, spelling])
  have hcontent := WritesLines.flatMap (pagerLine_writes theme width) (p.view.take (height - 2))
  have hupper := (htitle.append hcontent).append
    (blankLines_writes (height - 2 - (p.view.take (height - 2)).length))
  have hlen := List.length_take_le (height - 2) p.view
  refine ⟨_, [.fore (if p.mode = .browsing then theme.muted else theme.accent),
    .text (fit width (pagerFooter p)), .resetColors], _, rfl, hupper, ?_, ?_, ?_⟩
  · rw [pagerTexts, List.length_cons, List.length_map]
    omega
  · simp [Inline, isInline]
  · simp [spelling]

theorem pagerTexts_full {p : Pager} {width height : Nat} :
    ∀ line ∈ pagerTexts p width height, line.length = width := by
  refine List.forall_mem_cons.mpr ⟨length_fit _ _, ?_⟩
  intro line hline
  obtain ⟨shown, -, rfl⟩ := List.mem_map.mp hline
  exact length_fit _ _

/-! ## Prompts -/

theorem coordinate_le (n : Nat) : coordinate n ≤ n := Nat.mod_le n 65536

/-- A menu that is centred on the screen, and has fewer items than there are lines between its
title and its last line, is drawn inside the screen. -/
theorem menuBox_within {A : Type} (theme : Theme) {menu : Menu A} {width height : Nat}
    (hwidth : 4 ≤ width) (hheight : menu.items.length + 2 ≤ height) :
    OverlaysWithin width height (menuBox theme menu width height) := by
  have hinner : menuWidth menu width ≤ width - 4 := Nat.min_le_right _ _
  have hx : coordinate ((width - (menuWidth menu width + 2)) / 2) + (menuWidth menu width + 2) ≤
      width := by
    have hle := coordinate_le ((width - (menuWidth menu width + 2)) / 2)
    omega
  have hy : coordinate ((height - (menu.items.length + 2)) / 2) + 1 + menu.items.length <
      height := by
    have hle := coordinate_le ((height - (menu.items.length + 2)) / 2)
    omega
  unfold menuBox
  simp only
  generalize coordinate ((width - (menuWidth menu width + 2)) / 2) = x at hx ⊢
  generalize coordinate ((height - (menu.items.length + 2)) / 2) = y at hy ⊢
  -- The title, the items and the line below them.
  refine (OverlaysWithin.append ?_ (.flatMap ?_)).append ?_
  · refine .strip ?_ ?_ (by omega)
    · simp [Inline, isInline, menuText]
    · simpa [spelling, menuText, length_fit] using hx
  · rintro ⟨item, i⟩ hmem
    have hi := List.snd_lt_of_mem_zipIdx hmem
    refine .strip ?_ ?_ (by omega)
    · unfold menuItem
      split <;> simp [Inline, isInline, menuText]
    · unfold menuItem
      split <;> simpa [spelling, menuText, length_fit] using hx
  · refine .strip ?_ ?_ hy
    · simp [Inline, isInline, menuText]
    · simpa [spelling, menuText, length_fit] using hx

/-- **Prompts** are drawn inside a screen that is large enough. -/
theorem promptBox_within (theme : Theme) {p : Prompt Followup Action} (hshort : p.Short)
    {width height : Nat} (hwidth : minColumns ≤ width) (hheight : minRows ≤ height) :
    OverlaysWithin width height (promptBox theme p.question width height) := by
  unfold minColumns at hwidth
  unfold minRows at hheight
  have hbar : barRow height < height := by
    have hle : barRow height ≤ height - 3 := coordinate_le _
    omega
  unfold promptBox
  split
  · refine .strip (by simp [Inline, isInline]) ?_ hbar
    simp [spelling, length_fit]
  · refine .strip (by simp [Inline, isInline]) ?_ hbar
    simp [spelling, length_fit]
  · next m hmenu =>
    have hitems : m.items.length ≤ 7 := hshort m hmenu
    exact menuBox_within theme (by omega) (by omega)

/-! ## The counter -/

theorem length_toString_le {n : Nat} (h : n < UInt64.size) : (toString n).toList.length ≤ 20 := by
  have hlt : n < 10 ^ 20 := Nat.lt_trans h (by decide)
  have hdigits : (toString n).toList = Nat.toDigits 10 n := Nat.toList_repr
  rw [hdigits]
  exact Nat.toDigits_length 10 n 20 (by decide) hlt

/-- The counter has room on the narrowest screen, as long as rows are counted in 64 bits. -/
theorem length_counter_le {s : State}
    (hshown : s.activeTable.shown.length ≤ s.activeTable.rows.length)
    (hrows : s.activeTable.rows.length < UInt64.size) : (counter s).length ≤ minColumns := by
  have hall := length_toString_le hrows
  have hpart := length_toString_le (Nat.lt_of_le_of_lt hshown hrows)
  have hself (text : String) : toString text = text := rfl
  unfold counter minColumns
  simp only [List.length_append, List.length_singleton]
  have hnote : (if s.loading.get s.view then " loading…".toList else []).length ≤ 9 := by
    split <;> decide
  have hcount : (if s.activeTable.shown.length = s.activeTable.rows.length
      then toString s.activeTable.rows.length
      else s!"{s.activeTable.shown.length}/{s.activeTable.rows.length}").toList.length ≤ 41 := by
    split
    · omega
    · simp only [String.toList_append, List.length_append, hself]
      have hslash : "/".toList.length = 1 := rfl
      omega
  omega

/-! ## The whole frame -/

/-- The lines of a frame: those above some blank ones, those below, the last one, and what stands on
top of them. -/
structure Sheet where
  above : List (List Char)
  blanks : Nat
  below : List (List Char)
  footer : List Char
  overlay : List Strip

namespace Sheet

/-- The lines that are ended. -/
def upper (sheet : Sheet) : List (List Char) :=
  sheet.above ++ List.replicate sheet.blanks [] ++ sheet.below

/-- The lines fill a screen of `width` by `height`, and nothing stands outside. -/
structure Fits (sheet : Sheet) (width height : Nat) : Prop where
  height_eq : sheet.upper.length + 1 = height
  full : ∀ line ∈ sheet.above ++ sheet.below ++ [sheet.footer], line.length = width
  inside : ∀ strip ∈ sheet.overlay, strip.Inside width height

/-- Instructions write the lines that are ended, and others, which break no line, the last line and
what stands on top. -/
structure DrawnBy (sheet : Sheet) (upper rest : List Draw) : Prop where
  lines : WritesLines upper sheet.upper
  last : strips ⟨0, sheet.upper.length, []⟩ rest =
    ⟨0, sheet.upper.length, sheet.footer⟩ :: sheet.overlay
  unbroken : rest.count .newline = 0

end Sheet

/-- The lines of a view that are not blank, down to its table. -/
def viewTexts (theme : Theme) (s : State) : List (List Char) :=
  (if s.showHeader then [fit s.width (headerText s.summary)] else []) ++
    [spelled (tabBar theme s.view (extraTitle s) (counter s) s.width),
      fit s.width (s.activeTable.view s.format).header] ++
    tableTexts (s.activeTable.view s.format) s.width s.bodyHeight (emptyNotice s)

/-- What stands on a sheet for a state. -/
inductive Shows (theme : Theme) (s : State) : Sheet → Prop
  | pager (layer : PagerLayer) (hlayer : s.layer = some (.pager layer)) (blanks : Nat) :
      Shows theme s
        { above := pagerTexts layer.pager s.width s.height
          blanks
          below := []
          footer := fit s.width (pagerFooter layer.pager)
          overlay := [] }
  | view (hlayer : ∀ layer, s.layer ≠ some (.pager layer)) (blanks : Nat) (overlay : List Strip)
      (hoverlay : (∀ p, s.layer ≠ some (.prompt p)) → overlay = []) :
      Shows theme s
        { above := viewTexts theme s
          blanks
          below := [fit s.width (statusText s)]
          footer := fit s.width (Layout.footerHints s.view).toList
          overlay }

theorem viewTexts_full (theme : Theme) {s : State} (hcounter : (counter s).length ≤ s.width) :
    ∀ line ∈ viewTexts theme s, line.length = s.width := by
  have hbar := (tabBar_writes theme s.view (extraTitle s) hcounter).1
  have hheader : ∀ line ∈ (if s.showHeader then [fit s.width (headerText s.summary)] else []),
      line.length = s.width := by
    split
    · exact List.forall_mem_singleton.mpr (length_fit _ _)
    · exact List.forall_mem_nil _
  refine List.forall_mem_append.mpr ⟨List.forall_mem_append.mpr ⟨hheader, ?_⟩, tableTexts_full⟩
  exact List.forall_mem_cons.mpr ⟨hbar, List.forall_mem_singleton.mpr (length_fit _ _)⟩

/-- What is drawn of a view above the status line. -/
def viewTop (theme : Theme) (s : State) : List Draw :=
  (if s.showHeader then header theme s.summary s.width else []) ++
    tabBar theme s.view (extraTitle s) (counter s) s.width ++
    table theme (s.activeTable.view s.format) s.width s.bodyHeight (emptyNotice s)

theorem viewPage_top (theme : Theme) (s : State) :
    viewPage theme s =
      viewTop theme s ++ statusLine theme s ++
        footer theme (Layout.footerHints s.view).toList s.width :=
  rfl

/-- What is above the status line takes all lines of the screen but two. -/
theorem viewTop_writes (theme : Theme) {s : State} (hheight : minRows ≤ s.height)
    (hcounter : (counter s).length ≤ s.width) :
    ∃ blanks, WritesLines (viewTop theme s) (viewTexts theme s ++ List.replicate blanks []) ∧
      (viewTexts theme s).length + blanks + 2 = s.height := by
  have hheader : WritesLines (if s.showHeader then header theme s.summary s.width else [])
      (if s.showHeader then [fit s.width (headerText s.summary)] else []) := by
    split
    · exact header_writes theme s.summary s.width
    · exact .nil
  have hbar := (tabBar_writes theme s.view (extraTitle s) hcounter).2
  have hsome : 1 ≤ s.bodyHeight := Nat.le_max_right _ _
  obtain ⟨blanks, htable, hrows⟩ :=
    table_writes theme (s.activeTable.view s.format) s.width hsome (emptyNotice s)
  have hall := (hheader.append hbar).append htable
  refine ⟨blanks, ?_, ?_⟩
  · simpa only [viewTop, viewTexts, List.append_assoc, List.cons_append, List.nil_append] using hall
  · -- Beside the table there are as many lines as the tables are fitted for.
    have hbody : s.bodyHeight + (State.chromeRows + if s.showHeader then 1 else 0) = s.height := by
      unfold minRows at hheight
      unfold State.bodyHeight State.chromeRows
      split <;> omega
    have hhead : (if s.showHeader then [fit s.width (headerText s.summary)] else []).length =
        if s.showHeader then 1 else 0 := by
      split <;> rfl
    unfold State.chromeRows at hbody
    rw [viewTexts, List.length_append, List.length_append, hhead]
    simp only [List.length_cons, List.length_nil]
    omega

/-- **The page of a view** takes as many lines as the screen has, the last being its footer. -/
theorem viewPage_eq (theme : Theme) {s : State} (hheight : minRows ≤ s.height)
    (hcounter : (counter s).length ≤ s.width) :
    ∃ upper blanks,
      viewPage theme s = upper ++ footer theme (Layout.footerHints s.view).toList s.width ∧
      WritesLines upper (viewTexts theme s ++ List.replicate blanks [] ++
        [fit s.width (statusText s)]) ∧
      (viewTexts theme s).length + blanks + 2 = s.height := by
  obtain ⟨blanks, hlines, hsum⟩ := viewTop_writes theme hheight hcounter
  exact ⟨_, blanks, viewPage_top theme s, hlines.append (statusLine_writes theme s), hsum⟩

/-- Instructions draw a sheet that shows a state and fits its screen. -/
def Fills (theme : Theme) (s : State) (draws : List Draw) : Prop :=
  ∃ sheet upper rest, draws = upper ++ rest ∧ Shows theme s sheet ∧
    Sheet.Fits sheet s.width s.height ∧ Sheet.DrawnBy sheet upper rest

theorem viewPage_fills (theme : Theme) {s : State} {top : List Draw}
    (hheight : minRows ≤ s.height) (hcounter : (counter s).length ≤ s.width)
    (hlayer : ∀ layer, s.layer ≠ some (.pager layer))
    (htop : OverlaysWithin s.width s.height top)
    (hbare : (∀ p, s.layer ≠ some (.prompt p)) → top = []) :
    Fills theme s (viewPage theme s ++ top) := by
  obtain ⟨upper, blanks, hpage, hlines, hsum⟩ := viewPage_eq theme hheight hcounter
  obtain ⟨hinline, hspelled⟩ := footer_inline theme (Layout.footerHints s.view).toList s.width
  obtain ⟨overlay, htop, hinside⟩ := htop
  have hoverlay : (∀ p, s.layer ≠ some (.prompt p)) → overlay = [] := by
    intro hnone
    have hnothing := htop.strips ⟨0, 0, []⟩
    rw [hbare hnone] at hnothing
    exact (List.cons.inj hnothing).2.symm
  refine ⟨_, upper, footer theme (Layout.footerHints s.view).toList s.width ++ top, ?_,
    .view hlayer blanks overlay hoverlay, ⟨?_, ?_, hinside⟩, ⟨hlines, ?_, ?_⟩⟩
  · rw [hpage, List.append_assoc]
  · simp only [Sheet.upper, List.length_append, List.length_replicate, List.length_singleton]
    omega
  · refine List.forall_mem_append.mpr
      ⟨List.forall_mem_append.mpr ⟨viewTexts_full theme hcounter, ?_⟩, ?_⟩
    · exact List.forall_mem_singleton.mpr (length_fit _ _)
    · exact List.forall_mem_singleton.mpr (length_fit _ _)
  · rw [(strips_last hinline htop _).1, hspelled]
    rfl
  · exact (strips_last hinline htop ⟨0, 0, []⟩).2

theorem pagerPage_fills (theme : Theme) {s : State} {layer : PagerLayer}
    (hheight : minRows ≤ s.height) (hlayer : s.layer = some (.pager layer)) :
    Fills theme s (pagerPage theme layer.pager s.width s.height) := by
  have htall : 2 ≤ s.height := Nat.le_trans (by decide) hheight
  obtain ⟨upper, last, blanks, hpage, hlines, hsum, hinline, hspelled⟩ :=
    pagerPage_eq theme layer.pager s.width htall
  have hend := strips_last hinline .nil
  rw [List.append_nil] at hend
  refine ⟨_, upper, last, hpage, .pager layer hlayer blanks, ⟨?_, ?_, List.forall_mem_nil _⟩,
    ⟨?_, ?_, ?_⟩⟩
  · simp only [Sheet.upper, List.length_append, List.length_replicate, List.length_nil]
    omega
  · refine List.forall_mem_append.mpr ⟨?_, List.forall_mem_singleton.mpr (length_fit _ _)⟩
    rw [List.append_nil]
    exact pagerTexts_full
  · rw [Sheet.upper, List.append_nil]
    exact hlines
  · rw [(hend _).1, hspelled]
    rfl
  · exact (hend ⟨0, 0, []⟩).2

/-- **A page** fills a screen that is large enough. -/
theorem page_fills (theme : Theme) {s : State} (hwidth : minColumns ≤ s.width)
    (hheight : minRows ≤ s.height) (hcounter : (counter s).length ≤ s.width)
    (hshort : s.OffersShort) : Fills theme s (page theme s) := by
  unfold page
  split
  · next layer hlayer => exact pagerPage_fills theme hheight hlayer
  · next p hlayer =>
    refine viewPage_fills theme hheight hcounter ?_
      (promptBox_within theme (hshort p hlayer) hwidth hheight) ?_
    · rw [hlayer]
      exact nofun
    · exact fun hnone => absurd hlayer (hnone p)
  · next hlayer =>
    have hpage := viewPage_fills theme hheight hcounter (by rw [hlayer]; exact nofun) .nil
      fun _ => rfl
    rw [List.append_nil] at hpage
    exact hpage

/-- Whatever has happened to a session, its counter has room on a screen that is large enough. -/
theorem run_counter_le (config : Config) (now : Int) (events : List Event) :
    let s := (State.new config now).run events
    minColumns ≤ s.width → s.activeTable.rows.length < UInt64.size →
      (counter s).length ≤ s.width := by
  intro s hwidth hrows
  have hsettled : s.board.Settled :=
    (State.run_keeps (fun _ _ _ heffect => heffect.settled) (fun _ => rfl)
      (State.new_settled config now) events).2
  exact Nat.le_trans (length_counter_le (hsettled s.view).shown_le hrows) hwidth

/-- **Frames.** Whatever has happened to a session, on a screen that is large enough a frame has as
many lines as the screen. Those that are not blank are exactly as wide as the screen, and what
stands on top of them lies inside. After the move to the origin there is a line break between any
two lines and none after the last, as long as no text holds one. (Rows are counted in 64 bits.) -/
theorem frame_fits (theme : Theme) (config : Config) (now : Int) (events : List Event) :
    let s := (State.new config now).run events
    minColumns ≤ s.width → minRows ≤ s.height → s.activeTable.rows.length < UInt64.size →
      ∃ sheet upper rest, frame theme s = [.clear, .moveTo 0 0] ++ upper ++ rest ∧
        Shows theme s sheet ∧ sheet.Fits s.width s.height ∧ sheet.DrawnBy upper rest ∧
        (Printable (frame theme s) → ∀ c, IsBreak c →
          (writeAll upper).toList.count c + 1 = s.height ∧ c ∉ (writeAll rest).toList) := by
  intro s hwidth hheight hrows
  have hcounter : (counter s).length ≤ s.width := run_counter_le config now events hwidth hrows
  obtain ⟨sheet, upper, rest, hpage, hshows, hfits, hdrawn⟩ :=
    page_fills theme hwidth hheight hcounter (State.run_offersShort config now events)
  have hframe : frame theme s = [.clear, .moveTo 0 0] ++ upper ++ rest := by
    have hlarge : isLargeEnough s.width s.height = true := by
      simp [isLargeEnough, hwidth, hheight]
    rw [frame, if_pos hlarge, hpage, List.append_assoc]
  refine ⟨sheet, upper, rest, hframe, hshows, hfits, hdrawn, ?_⟩
  intro hplain c hc
  rw [hframe] at hplain
  obtain ⟨hfirst, hrest⟩ : _ ∧ Printable rest := List.forall_mem_append.mp hplain
  have hupper : Printable upper := (List.forall_mem_append.mp hfirst).2
  constructor
  · rw [hupper.count_writeAll hc, hdrawn.lines.breaks]
    exact hfits.height_eq
  · rw [← List.count_eq_zero, hrest.count_writeAll hc]
    exact hdrawn.unbroken

/-- The seven items of a container's menu just have room on the smallest screen. -/
theorem frame_fits_of_menu :
    let web : Row := .container { id := "f00", name := "web" }
    let s := (State.new {} 0).run [.begin, .input (.resize 60 10),
      .input (.loaded .containers none [web]), .input (.key { code := .enter })]
    s.width = 60 ∧ s.height = 10 ∧ s.layer.isSome = true ∧
      ∃ (sheet : Sheet) (upper rest : List Draw),
        frame {} s = [.clear, .moveTo 0 0] ++ upper ++ rest ∧ sheet.Fits 60 10 ∧
        sheet.DrawnBy upper rest ∧ (writeAll upper).toList.count '\n' = 9 ∧
        '\n' ∉ (writeAll rest).toList := by
  intro web s
  have hplain : Printable (frame {} s) := by decide +kernel
  have hwidth : s.width = 60 := by decide +kernel
  have hheight : s.height = 10 := by decide +kernel
  obtain ⟨sheet, upper, rest, hframe, -, hfits, hdrawn, hbreaks⟩ :=
    frame_fits {} {} 0 [.begin, .input (.resize 60 10), .input (.loaded .containers none [web]),
      .input (.key { code := .enter })] (Nat.le_of_eq hwidth.symm) (Nat.le_of_eq hheight.symm)
      (by decide +kernel)
  obtain ⟨hcount, hnone⟩ := hbreaks hplain '\n' (Or.inr rfl)
  have hsmallest : sheet.Fits s.width s.height := hfits
  rw [hwidth, hheight] at hsmallest
  exact ⟨hwidth, hheight, by decide +kernel, sheet, upper, rest, hframe, hsmallest, hdrawn,
    Nat.succ.inj (hcount.trans hheight), hnone⟩

end Dockboard.Screen
