import Dockboard.Screen.Draw

set_option autoImplicit false

/-! # Where instructions write

A terminal has a cursor. Text is written from there on, a line break goes to the beginning of the
row below, and a move goes anywhere; all other instructions change how text looks.

    strip               characters next to each other, from a place on
    drawn strip draws   the strips that are completed, and the one that is begun by then
    strips strip draws  the same in one list
    placed y lines      lines one below the other, from row `y` on

So instructions that make no moves write lines (`WritesLines`), instructions that neither move nor
break a line go on with a strip (`drawn_inline`), and what comes on top begins with a move
(`Overlays`). Each of these can be put together from parts, and what ends a page from the last two
(`strips_last`).
-/

namespace Dockboard.Screen

open Dockboard.Text

/-- Characters next to each other in a row of the screen, from a place on. -/
structure Strip where
  x : Nat
  y : Nat
  text : List Char
  deriving DecidableEq, Repr

/-- A strip lies on a screen of `width` by `height`. -/
def Strip.Inside (width height : Nat) (strip : Strip) : Prop :=
  strip.x + strip.text.length ≤ width ∧ strip.y < height

/-- Lines one below the other, from row `y` on. -/
def placed (y : Nat) (lines : List (List Char)) : List Strip :=
  (lines.zipIdx y).map fun (text, row) => ⟨0, row, text⟩

theorem placed_append (y : Nat) (lines more : List (List Char)) :
    placed y (lines ++ more) = placed y lines ++ placed (y + lines.length) more := by
  rw [placed, List.zipIdx_append, List.map_append, placed, placed]

namespace Draw

/-- What an instruction completes, and the strip that is begun after it. -/
def put (strip : Strip) : Draw → List Strip × Strip
  | .text s => ([], { strip with text := strip.text ++ s })
  | .newline => ([strip], ⟨0, strip.y + 1, []⟩)
  | .moveTo x y => ([strip], ⟨x, y, []⟩)
  | _ => ([], strip)

/-- What instructions complete when `strip` is begun, and the strip that is begun after them. -/
def drawn (strip : Strip) : List Draw → List Strip × Strip
  | [] => ([], strip)
  | d :: rest =>
      let (now, strip) := put strip d
      let (later, strip) := drawn strip rest
      (now ++ later, strip)

/-- Everything that instructions write when `strip` is begun. -/
def strips (strip : Strip) (draws : List Draw) : List Strip :=
  (drawn strip draws).1 ++ [(drawn strip draws).2]

theorem drawn_append (strip : Strip) (draws more : List Draw) :
    drawn strip (draws ++ more) =
      ((drawn strip draws).1 ++ (drawn (drawn strip draws).2 more).1,
        (drawn (drawn strip draws).2 more).2) := by
  induction draws generalizing strip with
  | nil => rfl
  | cons d draws ih => simp only [List.cons_append, drawn, ih, List.append_assoc]

theorem strips_append (strip : Strip) (draws more : List Draw) :
    strips strip (draws ++ more) =
      (drawn strip draws).1 ++ strips (drawn strip draws).2 more := by
  rw [strips, drawn_append, strips, List.append_assoc]

/-! ## Within a line -/

/-- Whether an instruction neither moves nor breaks the line. -/
def isInline : Draw → Bool
  | .newline | .moveTo _ _ => false
  | _ => true

/-- None of the instructions moves or breaks the line. -/
def Inline (draws : List Draw) : Prop := ∀ d ∈ draws, d.isInline = true

/-- The text that an instruction writes. -/
def spelling : Draw → List Char
  | .text s => s
  | _ => []

/-- The text that instructions write. -/
def spelled (draws : List Draw) : List Char := draws.flatMap spelling

@[simp] theorem spelled_nil : spelled [] = [] := rfl

@[simp] theorem spelled_cons (d : Draw) (draws : List Draw) :
    spelled (d :: draws) = d.spelling ++ spelled draws :=
  List.flatMap_cons

@[simp] theorem spelled_append (draws more : List Draw) :
    spelled (draws ++ more) = spelled draws ++ spelled more :=
  List.flatMap_append

theorem Inline.nil : Inline [] := fun d hd => by cases hd

theorem Inline.append {draws more : List Draw} (h : Inline draws) (h' : Inline more) :
    Inline (draws ++ more) :=
  List.forall_mem_append.mpr ⟨h, h'⟩

theorem Inline.breaks {draws : List Draw} (h : Inline draws) : draws.count .newline = 0 := by
  rw [List.count_eq_zero]
  intro hmem
  cases h _ hmem

/-- Instructions within a line go on with the strip that is begun. -/
theorem drawn_inline {draws : List Draw} (h : Inline draws) (strip : Strip) :
    drawn strip draws = ([], { strip with text := strip.text ++ spelled draws }) := by
  induction draws generalizing strip with
  | nil => simp [drawn]
  | cons d draws ih =>
      obtain ⟨hd, hrest⟩ := List.forall_mem_cons.mp h
      have hput : put strip d = ([], { strip with text := strip.text ++ d.spelling }) := by
        cases d with
        | text s => rfl
        | newline => cases hd
        | moveTo x y => cases hd
        | _ => simp [put, spelling]
      simp only [drawn, hput, ih hrest, List.nil_append, List.append_assoc, spelled_cons]

/-! ## Whole lines -/

/-- Instructions that begin and end at the beginning of a row write some lines, one below the
other. -/
structure WritesLines (draws : List Draw) (lines : List (List Char)) : Prop where
  drawn : ∀ y, drawn ⟨0, y, []⟩ draws = (placed y lines, ⟨0, y + lines.length, []⟩)
  breaks : draws.count .newline = lines.length

namespace WritesLines

theorem append {draws more : List Draw} {lines others : List (List Char)}
    (h : WritesLines draws lines) (h' : WritesLines more others) :
    WritesLines (draws ++ more) (lines ++ others) where
  drawn y := by
    rw [drawn_append, h.drawn, h'.drawn, placed_append, List.length_append, Nat.add_assoc]
  breaks := by rw [List.count_append, h.breaks, h'.breaks, List.length_append]

/-- Instructions that only say how text looks. -/
theorem styles {draws : List Draw} (h : Inline draws) (hblank : spelled draws = []) :
    WritesLines draws [] where
  drawn y := by
    rw [drawn_inline h, hblank]
    rfl
  breaks := h.breaks

/-- A line and its end. -/
theorem line {draws : List Draw} (h : Inline draws) :
    WritesLines (draws ++ [.newline]) [spelled draws] where
  drawn y := by
    rw [drawn_append, drawn_inline h]
    rfl
  breaks := by
    rw [List.count_append, h.breaks]
    rfl

theorem nil : WritesLines [] [] := styles .nil rfl

/-- One line after the other. -/
theorem flatMap {α : Type} {f : α → List Draw} {g : α → List Char}
    (h : ∀ a, WritesLines (f a) [g a]) (xs : List α) :
    WritesLines (xs.flatMap f) (xs.map g) := by
  induction xs with
  | nil => exact nil
  | cons a xs ih =>
      rw [List.flatMap_cons, List.map_cons]
      exact (h a).append ih

end WritesLines

theorem line_writes (width : Nat) (s : List Char) : WritesLines (line width s) [fit width s] := by
  have hinline : Inline [.text (fit width s)] := List.forall_mem_singleton.mpr rfl
  have hline := WritesLines.line hinline
  rw [spelled_cons, spelled_nil, List.append_nil] at hline
  exact hline

theorem blankLines_writes (count : Nat) :
    WritesLines (blankLines count) (List.replicate count []) := by
  induction count with
  | zero => exact .nil
  | succ count ih =>
      have hblank : WritesLines [.newline] [[]] := WritesLines.line .nil
      exact hblank.append ih

theorem selectable_writes (theme : Theme) (width : Nat) (s : List Char) (selected : Bool) :
    WritesLines (selectable theme width s selected) [fit width s] := by
  cases selected with
  | false => exact line_writes width s
  | true =>
      have hinline : Inline [.back theme.selectionBack, .fore theme.selectionFore,
          .text (fit width s), .resetColors] := by
        simp [Inline, isInline]
      have hline := WritesLines.line hinline
      simp only [spelled_cons, spelling, List.nil_append, spelled_nil, List.append_nil] at hline
      exact hline

/-! ## What comes on top -/

/-- Instructions that complete the strip that is begun before they write others elsewhere, and break
no line. -/
structure Overlays (draws : List Draw) (above : List Strip) : Prop where
  strips : ∀ strip, strips strip draws = strip :: above
  breaks : draws.count .newline = 0

namespace Overlays

theorem nil : Overlays [] [] := ⟨fun _ => rfl, rfl⟩

theorem append {draws more : List Draw} {above others : List Strip} (h : Overlays draws above)
    (h' : Overlays more others) : Overlays (draws ++ more) (above ++ others) where
  strips strip := by
    calc Draw.strips strip (draws ++ more)
        = (drawn strip draws).1 ++ ((drawn strip draws).2 :: others) := by
          rw [strips_append, h'.strips]
      _ = Draw.strips strip draws ++ others := by
          rw [Draw.strips, List.append_assoc]
          rfl
      _ = strip :: (above ++ others) := by
          rw [h.strips, List.cons_append]
  breaks := by rw [List.count_append, h.breaks, h'.breaks]

/-- A strip at a place of its own. -/
theorem strip (x y : Nat) {draws : List Draw} (h : Inline draws) :
    Overlays (.moveTo x y :: draws) [⟨x, y, spelled draws⟩] where
  strips strip := by
    simp only [Draw.strips, drawn, put, drawn_inline h, List.append_nil, List.nil_append]
    rfl
  breaks := by
    rw [List.count_cons_of_ne (by simp), h.breaks]

end Overlays

/-- What instructions write on top lies on a screen of `width` by `height`. -/
def OverlaysWithin (width height : Nat) (draws : List Draw) : Prop :=
  ∃ above, Overlays draws above ∧ ∀ strip ∈ above, strip.Inside width height

namespace OverlaysWithin

variable {width height : Nat}

theorem nil : OverlaysWithin width height [] := ⟨[], .nil, fun _ hmem => by cases hmem⟩

theorem append {draws more : List Draw} (h : OverlaysWithin width height draws)
    (h' : OverlaysWithin width height more) : OverlaysWithin width height (draws ++ more) := by
  obtain ⟨above, hdraws, hinside⟩ := h
  obtain ⟨others, hmore, hothers⟩ := h'
  exact ⟨above ++ others, hdraws.append hmore, List.forall_mem_append.mpr ⟨hinside, hothers⟩⟩

theorem strip {x y : Nat} {draws : List Draw} (h : Inline draws)
    (hwidth : x + (spelled draws).length ≤ width) (hheight : y < height) :
    OverlaysWithin width height (.moveTo x y :: draws) :=
  ⟨_, .strip x y h, List.forall_mem_singleton.mpr ⟨hwidth, hheight⟩⟩

theorem flatMap {α : Type} {f : α → List Draw} {xs : List α}
    (h : ∀ a ∈ xs, OverlaysWithin width height (f a)) :
    OverlaysWithin width height (xs.flatMap f) := by
  induction xs with
  | nil => exact nil
  | cons a xs ih =>
      obtain ⟨ha, hrest⟩ := List.forall_mem_cons.mp h
      rw [List.flatMap_cons]
      exact ha.append (ih hrest)

end OverlaysWithin

/-- **The end of a page**: a last line that is not ended, and what stands on top of the page. -/
theorem strips_last {last top : List Draw} {above : List Strip} (hlast : Inline last)
    (htop : Overlays top above) (strip : Strip) :
    strips strip (last ++ top) = { strip with text := strip.text ++ spelled last } :: above ∧
      (last ++ top).count .newline = 0 := by
  constructor
  · rw [strips_append, drawn_inline hlast, htop.strips]
    rfl
  · rw [List.count_append, hlast.breaks, htop.breaks]

/-! ## Line breaks among the characters -/

/-- Whether a character controls the terminal and cannot be seen. -/
def isControl (c : Char) : Bool := c.toNat < 32 || (127 ≤ c.toNat && c.toNat < 160)

/-- No text that is drawn holds a control character. -/
def Printable (draws : List Draw) : Prop := ∀ d ∈ draws, ∀ c ∈ d.spelling, isControl c = false

instance (draws : List Draw) : Decidable (Printable draws) :=
  decidable_of_iff ((draws.all fun d => d.spelling.all fun c => !isControl c) = true)
    (by simp [Printable])

theorem not_mem_digits {c : Char} (h : c.isDigit = false) (n : Nat) : c ∉ (toString n).toList := by
  intro hmem
  have hdigits : (toString n).toList = Nat.toDigits 10 n := Nat.toList_repr
  rw [hdigits] at hmem
  have hdigit := Nat.isDigit_of_mem_toDigits (by decide) (by decide) hmem
  rw [h] at hdigit
  cases hdigit

/-- The characters of a line break. -/
def IsBreak (c : Char) : Prop := c = '\r' ∨ c = '\n'

theorem IsBreak.isControl {c : Char} (h : IsBreak c) : isControl c = true := by
  rcases h with rfl | rfl <;> decide

theorem IsBreak.isDigit {c : Char} (h : IsBreak c) : c.isDigit = false := by
  rcases h with rfl | rfl <;> decide

theorem IsBreak.not_mem_escape {c : Char} (h : IsBreak c) {body : String}
    (hbody : c ∉ body.toList) : c ∉ escape body := by
  have hprefix : c ∉ ['\x1b', '['] := by rcases h with rfl | rfl <;> decide
  intro hmem
  rcases List.mem_append.mp (show c ∈ ['\x1b', '['] ++ body.toList from hmem) with hfirst | hrest
  · exact hprefix hfirst
  · exact hbody hrest

theorem IsBreak.not_mem_colorEscape {c : Char} (h : IsBreak c) (layer : Nat) (color : Color) :
    c ∉ colorEscape layer color := by
  have hdigits := not_mem_digits h.isDigit
  have hletters : c ∉ "8;5;9m".toList := by rcases h with rfl | rfl <;> decide
  have hself (text : String) : toString text = text := rfl
  unfold colorEscape
  split
  · apply h.not_mem_escape
    simp_all [String.toList_append]
  · apply h.not_mem_escape
    simp_all [String.toList_append]

/-- Only a line break writes one, and what text holds. -/
theorem IsBreak.count_write {c : Char} (h : IsBreak c) (d : Draw) :
    d.write.count c = [d].count .newline + d.spelling.count c := by
  have hescape {body : String} (hbody : c ∉ body.toList) : (escape body).count c = 0 :=
    List.count_eq_zero.mpr (h.not_mem_escape hbody)
  have hletters : c ∉ "2J1m0m;H".toList := by rcases h with rfl | rfl <;> decide
  cases d with
  | text s => exact (Nat.zero_add _).symm
  | newline => rcases h with rfl | rfl <;> rfl
  | moveTo x y =>
      have hdigits := not_mem_digits h.isDigit
      have hself (text : String) : toString text = text := rfl
      apply hescape
      simp_all [String.toList_append]
  | clear => apply hescape; simp_all
  | fore color => exact List.count_eq_zero.mpr (h.not_mem_colorEscape 3 color)
  | back color => exact List.count_eq_zero.mpr (h.not_mem_colorEscape 4 color)
  | bold => apply hescape; simp_all
  | plain => apply hescape; simp_all
  | resetColors => apply hescape; simp_all

/-- **Line breaks.** Among the characters that are sent there are as many as instructions that break
a line, and those that are part of a text. -/
theorem count_writeAll {c : Char} (h : IsBreak c) (draws : List Draw) :
    (writeAll draws).toList.count c = draws.count .newline + (spelled draws).count c := by
  rw [writeAll, String.toList_ofList]
  induction draws with
  | nil => rfl
  | cons d draws ih =>
      have hcount : (d :: draws).count .newline = [d].count .newline + draws.count .newline := by
        rw [← List.count_append]
        rfl
      rw [List.flatMap_cons, List.count_append, h.count_write d, ih, hcount, spelled_cons,
        List.count_append]
      omega

/-- No line break is part of a text if none holds a control character. -/
theorem Printable.count_writeAll {draws : List Draw} (hdraws : Printable draws) {c : Char}
    (h : IsBreak c) : (writeAll draws).toList.count c = draws.count .newline := by
  have hnone : c ∉ spelled draws := by
    intro hmem
    obtain ⟨d, hd, hc⟩ := List.mem_flatMap.mp hmem
    have hplain := hdraws d hd c hc
    rw [h.isControl] at hplain
    cases hplain
  rw [Draw.count_writeAll h, List.count_eq_zero.mpr hnone, Nat.add_zero]

end Draw

end Dockboard.Screen
