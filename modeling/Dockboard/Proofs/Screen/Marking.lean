import Dockboard.Proofs.Pager.Pieces
import Dockboard.Proofs.Text.Spans
import Dockboard.Screen.PagerPage

set_option autoImplicit false

/-! # Lines with marks

A line of a pager is written in stretches, of which some are marked. The spans to be marked are
counted in bytes of the line, so each is looked at before the line is cut there: one that cannot be
marked is passed over, and what it covers is written with what comes next.

    Stretch                         a part of a line as it is written
    Markable shown pos span         the part of `shown` at `span` can be marked, if `pos` bytes of
                                    `shown` have been written
    Written shown pos spans parts   the rest of `shown` is written in these parts

Whatever the spans are, no character is cut through, and none is lost or written twice
(`marked_written`, `Written.text`). Those of what a pager has found are all marked
(`Written.marked_eq`), as they lie one behind the other and none ends inside a character.
-/

namespace Dockboard

open Dockboard.Text

namespace Screen

/-! ## Cutting a text -/

theorem cutAt?_eq_some_iff {n : Nat} {s before after : List Char} :
    cutAt? n s = some (before, after) ↔ s = before ++ after ∧ byteLength before = n := by
  induction n, s using cutAt?.induct generalizing before after with
  | case1 s =>
      simp only [cutAt?, Option.some.injEq, Prod.mk.injEq]
      constructor
      · rintro ⟨rfl, rfl⟩
        exact ⟨rfl, rfl⟩
      · rintro ⟨rfl, hlength⟩
        rw [byteLength_eq_zero hlength]
        exact ⟨rfl, rfl⟩
  | case2 n =>
      refine iff_of_false (by simp [cutAt?]) ?_
      rintro ⟨hnil, hlength⟩
      rw [(List.append_eq_nil_iff.mp hnil.symm).1] at hlength
      cases hlength
  | case3 n c s hfits ih =>
      rw [cutAt?, if_pos hfits, Option.map_eq_some_iff]
      constructor
      · rintro ⟨⟨first, last⟩, hcut, heq⟩
        cases heq
        obtain ⟨rfl, hlength⟩ := ih.mp hcut
        refine ⟨rfl, ?_⟩
        rw [byteLength, hlength]
        omega
      · rintro ⟨hs, hlength⟩
        cases before with
        | nil => cases hlength
        | cons d before =>
            obtain ⟨rfl, rfl⟩ := List.cons.inj hs
            rw [byteLength] at hlength
            exact ⟨(before, after), ih.mpr ⟨rfl, by omega⟩, rfl⟩
  | case4 n c s hwide =>
      rw [cutAt?, if_neg hwide]
      refine iff_of_false (by simp) ?_
      rintro ⟨hs, hlength⟩
      cases before with
      | nil => cases hlength
      | cons d before =>
          obtain ⟨rfl, rfl⟩ := List.cons.inj hs
          rw [byteLength] at hlength
          omega

/-! ## Stretches -/

/-- A part of a line as it is written. -/
structure Stretch where
  /-- Where it stands in the line, in bytes. -/
  span : Span
  text : List Char
  marked : Bool

/-- The instructions that write a stretch, `color` being the background of what is marked. -/
def Stretch.draws (theme : Theme) (color : Color) (part : Stretch) : List Draw :=
  if part.marked then
    [.back color, .fore theme.selectionFore, .text part.text, .resetColors]
  else [.text part.text]

/-- What `shown` has at `span` can be marked if the first `pos` bytes have been written: it has not
been written, it is not empty, and to cut it out cuts through no character. -/
structure Markable (shown : List Char) (pos : Nat) (span : Span) : Prop where
  ahead : pos ≤ span.1
  nonempty : span.1 < min span.2 (byteLength shown)
  begins : IsBoundary shown span.1
  ends : IsBoundary shown (min span.2 (byteLength shown))

/-- `shown` is written from byte `pos` on, with what can be marked at `spans` marked. All parts that
are cut out of `shown` for that are slices of it. -/
inductive Written (shown : List Char) : Nat → List Span → List Stretch → Prop where
  | rest {pos : Nat} {text : List Char} (slice : IsSlice shown (pos, byteLength shown) text) :
      Written shown pos [] [⟨(pos, byteLength shown), text, false⟩]
  | pass {pos : Nat} {span : Span} {spans : List Span} {parts : List Stretch}
      (unfit : ¬ Markable shown pos span) (more : Written shown pos spans parts) :
      Written shown pos (span :: spans) parts
  | mark {pos begins ends : Nat} {spans : List Span} {parts : List Stretch}
      {before inside : List Char} (fit : Markable shown pos (begins, ends))
      (plain : IsSlice shown (pos, begins) before)
      (slice : IsSlice shown (begins, min ends (byteLength shown)) inside)
      (more : Written shown (min ends (byteLength shown)) spans parts) :
      Written shown pos ((begins, ends) :: spans)
        (⟨(pos, begins), before, false⟩ ::
          ⟨(begins, min ends (byteLength shown)), inside, true⟩ :: parts)

section Marked

variable {shown done rest : List Char} {begins ends : Nat}

/-- What can be marked is found by cutting the rest of the text twice. -/
theorem markable_iff (hshown : shown = done ++ rest) :
    Markable shown (byteLength done) (begins, ends) ↔
      begins < min ends (byteLength shown) ∧
        ∃ before inside after, rest = before ++ (inside ++ after) ∧
          byteLength (done ++ before) = begins ∧
            byteLength (done ++ before ++ inside) = min ends (byteLength shown) := by
  constructor
  · intro ⟨hahead, hnonempty, ⟨first, hfirst, hbegins⟩, ⟨last, hlast, hends⟩⟩
    simp only at hahead hnonempty hbegins hends
    obtain ⟨before, rfl⟩ := prefix_of_byteLength_le (hshown ▸ List.prefix_append done rest) hfirst
      (hbegins ▸ hahead)
    obtain ⟨inside, rfl⟩ := prefix_of_byteLength_le hfirst hlast (by omega)
    obtain ⟨after, hafter⟩ := hlast
    refine ⟨hnonempty, before, inside, after, ?_, hbegins, hends⟩
    rw [hshown] at hafter
    simpa using hafter.symm
  · rintro ⟨hnonempty, before, inside, after, rfl, hbegins, hends⟩
    refine ⟨?_, hnonempty, ⟨done ++ before, ?_, hbegins⟩, ⟨done ++ before ++ inside, ?_, hends⟩⟩
    · rw [← hbegins, byteLength_append]
      exact Nat.le_add_right _ _
    · rw [hshown, ← List.append_assoc]
      exact List.prefix_append _ _
    · rw [hshown, ← List.append_assoc, ← List.append_assoc]
      exact List.prefix_append _ _

variable (theme : Theme) (color : Color)

theorem marked_of_not_markable (hshown : shown = done ++ rest)
    (unfit : ¬ Markable shown (byteLength done) (begins, ends)) (spans : List Span) :
    marked theme color (byteLength shown) (byteLength done) rest ((begins, ends) :: spans) =
      marked theme color (byteLength shown) (byteLength done) rest spans := by
  rw [marked]
  split
  · rfl
  · next hgood =>
    simp only [Bool.or_eq_true, decide_eq_true_eq, not_or, Nat.not_lt, Nat.not_le] at hgood
    split
    · rfl
    · next before tail hbefore =>
      split
      · rfl
      · next inside after hinside =>
        obtain ⟨rfl, hlength⟩ := cutAt?_eq_some_iff.mp hbefore
        obtain ⟨rfl, hlength'⟩ := cutAt?_eq_some_iff.mp hinside
        exfalso
        apply unfit
        refine (markable_iff hshown).mpr ⟨hgood.2, before, inside, after, rfl, ?_, ?_⟩
        · rw [byteLength_append]
          omega
        · rw [byteLength_append, byteLength_append]
          omega

theorem marked_of_cut {before inside after : List Char}
    (hnonempty : begins < min ends (byteLength shown))
    (hbegins : byteLength (done ++ before) = begins)
    (hends : byteLength (done ++ before ++ inside) = min ends (byteLength shown))
    (spans : List Span) :
    marked theme color (byteLength shown) (byteLength done) (before ++ (inside ++ after))
        ((begins, ends) :: spans) =
      [.text before, .back color, .fore theme.selectionFore, .text inside, .resetColors] ++
        marked theme color (byteLength shown) (min ends (byteLength shown)) after spans := by
  rw [byteLength_append, hbegins] at hends
  rw [byteLength_append] at hbegins
  have hbefore : cutAt? (begins - byteLength done) (before ++ (inside ++ after)) =
      some (before, inside ++ after) :=
    cutAt?_eq_some_iff.mpr ⟨rfl, by omega⟩
  have hinside : cutAt? (min ends (byteLength shown) - begins) (inside ++ after) =
      some (inside, after) :=
    cutAt?_eq_some_iff.mpr ⟨rfl, by omega⟩
  have hgood : ¬ (begins < byteLength done ∨ min ends (byteLength shown) ≤ begins) := by omega
  rw [marked]
  simp only [Bool.or_eq_true, decide_eq_true_eq, if_neg hgood, hbefore, hinside]

/-- **Marking.** Whatever the spans are, the rest of a text is written, and cut only where that can
be done. -/
theorem marked_written (hshown : shown = done ++ rest) (spans : List Span) :
    ∃ parts, Written shown (byteLength done) spans parts ∧
      marked theme color (byteLength shown) (byteLength done) rest spans =
        parts.flatMap (Stretch.draws theme color) := by
  induction spans generalizing done rest with
  | nil =>
      have hslice : IsSlice shown (byteLength done, byteLength shown) rest :=
        ⟨done, [], by rw [hshown, List.append_nil], rfl, by rw [hshown, byteLength_append]⟩
      exact ⟨_, .rest hslice, rfl⟩
  | cons span spans ih =>
      obtain ⟨begins, ends⟩ := span
      by_cases hfit : Markable shown (byteLength done) (begins, ends)
      · obtain ⟨hnonempty, before, inside, after, rfl, hbegins, hends⟩ :=
          (markable_iff hshown).mp hfit
        have hplain : IsSlice shown (byteLength done, begins) before :=
          ⟨done, inside ++ after, by rw [hshown, List.append_assoc], rfl,
            by rw [← hbegins, byteLength_append]⟩
        have hslice : IsSlice shown (begins, min ends (byteLength shown)) inside :=
          ⟨done ++ before, after, by simp [hshown], hbegins,
            (byteLength_append _ _).symm.trans hends⟩
        have hafter : shown = (done ++ before ++ inside) ++ after := by simp [hshown]
        obtain ⟨parts, hparts, hdraws⟩ := ih hafter
        rw [hends] at hparts hdraws
        refine ⟨_, .mark hfit hplain hslice hparts, ?_⟩
        rw [marked_of_cut theme color hnonempty hbegins hends, hdraws]
        rfl
      · obtain ⟨parts, hparts, hdraws⟩ := ih hshown
        refine ⟨parts, .pass hfit hparts, ?_⟩
        rw [marked_of_not_markable theme color hshown hfit, hdraws]

/-- **Nothing is lost** and nothing written twice. -/
theorem Written.text {pos : Nat} {spans : List Span} {parts : List Stretch}
    (h : Written shown pos spans parts) :
    IsSlice shown (pos, byteLength shown) (parts.flatMap Stretch.text) := by
  induction h with
  | rest slice => simpa using slice
  | pass _ _ ih => exact ih
  | mark _ plain slice _ ih => exact plain.append (slice.append ih)

/-- Spans that lie one behind the other are all marked, if each of them can be. -/
theorem Written.marked_eq {pos : Nat} {spans : List Span} {parts : List Stretch}
    (h : Written shown pos spans parts) (hfit : ∀ span ∈ spans, Markable shown pos span)
    (hends : ∀ span ∈ spans, span.2 ≤ byteLength shown) (hapart : spans.Pairwise Apart) :
    (parts.filter Stretch.marked).map Stretch.span = spans := by
  induction h with
  | rest _ => rfl
  | pass unfit _ _ => exact absurd (hfit _ List.mem_cons_self) unfit
  | @mark pos begins ends spans parts before inside _ _ _ _ ih =>
      obtain ⟨hend, hlater⟩ := List.forall_mem_cons.mp hends
      obtain ⟨hfirst, hrest⟩ := List.pairwise_cons.mp hapart
      have hmin : min ends (byteLength shown) = ends := Nat.min_eq_left hend
      have hmarked := ih (fun span hspan => ?_) hlater hrest
      · simp [hmarked, hmin]
      · obtain ⟨-, hnonempty, hbegins, hends⟩ := hfit span (List.mem_cons_of_mem _ hspan)
        exact ⟨(Nat.min_le_left _ _).trans (hfirst span hspan), hnonempty, hbegins, hends⟩

end Marked

/-! ## Lines -/

/-- Whether an instruction only says how text looks. -/
def Draw.isStyle : Draw → Bool
  | .fore _ | .back _ | .bold | .plain | .resetColors => true
  | .text _ | .newline | .moveTo _ _ | .clear => false

/-- The characters of instructions, less those that only say how text looks. -/
def unstyled (draws : List Draw) : List Char :=
  (draws.filter fun d => !d.isStyle).flatMap Draw.write

theorem unstyled_append (draws more : List Draw) :
    unstyled (draws ++ more) = unstyled draws ++ unstyled more := by
  rw [unstyled, List.filter_append, List.flatMap_append, unstyled, unstyled]

theorem unstyled_parts (theme : Theme) (color : Color) (parts : List Stretch) :
    unstyled (parts.flatMap (Stretch.draws theme color)) = parts.flatMap Stretch.text := by
  induction parts with
  | nil => rfl
  | cons part parts ih =>
      have hpart : unstyled (part.draws theme color) = part.text := by
        unfold Stretch.draws
        split <;> simp [unstyled, Draw.isStyle, Draw.write]
      rw [List.flatMap_cons, unstyled_append, hpart, ih, List.flatMap_cons]

/-- The background of what is marked in a line. -/
def markColor (theme : Theme) (line : PagerLine) : Color :=
  if line.current then theme.currentMatchBack else theme.matchBack

/-- A line on a page of `width` columns is written in these parts. -/
structure LineWritten (theme : Theme) (width : Nat) (line : PagerLine) (parts : List Stretch) :
    Prop where
  written : Written (line.text.take width) 0 line.highlights parts
  /-- The parts are drawn and the line is filled up. One without highlights is drawn as a whole. -/
  draws : pagerLine theme width line =
    (if line.highlights = [] then [.text (fit width line.text)]
      else parts.flatMap (Stretch.draws theme (markColor theme line)) ++
        [.text (List.replicate (width - (line.text.take width).length) ' ')]) ++ [.newline]
  /-- But for how it looks, it is the text cut or filled up to the width, and a line break. -/
  plain : unstyled (pagerLine theme width line) = fit width line.text ++ ['\r', '\n']

theorem line_written (theme : Theme) (width : Nat) (line : PagerLine) :
    ∃ parts, LineWritten theme width line parts := by
  obtain ⟨parts, hwritten, hdraws⟩ := marked_written theme (markColor theme line)
    (List.nil_append (line.text.take width)).symm line.highlights
  have hline : pagerLine theme width line =
      (if line.highlights = [] then [.text (fit width line.text)]
        else parts.flatMap (Stretch.draws theme (markColor theme line)) ++
          [.text (List.replicate (width - (line.text.take width).length) ' ')]) ++
        [.newline] := by
    unfold pagerLine
    by_cases hnone : line.highlights = []
    · rw [if_pos (List.isEmpty_iff.mpr hnone), if_pos hnone]
      rfl
    · rw [if_neg (mt List.isEmpty_iff.mp hnone), if_neg hnone, ← hdraws, List.append_assoc]
      rfl
  refine ⟨parts, hwritten, hline, ?_⟩
  rw [hline, unstyled_append]
  split
  · simp [unstyled, Draw.isStyle, Draw.write]
  · rw [unstyled_append, unstyled_parts, hwritten.text.eq_of_all]
    simp [unstyled, Draw.isStyle, Draw.write, fit, padRight]

end Screen

/-! ## What a pager highlights -/

namespace Pager

theorem le_line_of_mem_findFrom {search : List Char} {first : Nat} {visible : List (List Char)}
    {m : Match} (h : m ∈ findFrom search first visible) : first ≤ m.line := by
  induction visible generalizing first with
  | nil => cases h
  | cons line visible ih =>
      rcases List.mem_append.mp h with hfirst | hrest
      · obtain ⟨span, -, rfl⟩ := List.mem_map.mp hfirst
        exact Nat.le_refl _
      · exact Nat.le_of_succ_le (ih hrest)

/-- What is found in one line. -/
theorem filter_findFrom (search : List Char) {line : List Char} {visible : List (List Char)}
    {i : Nat} (h : visible[i]? = some line) (first : Nat) :
    (findFrom search first visible).filter (fun m => m.line == first + i) =
      (findSpans (lower search) line).map fun span => ⟨first + i, span.1, span.2⟩ := by
  induction visible generalizing first i with
  | nil => cases h
  | cons other visible ih =>
      rw [findFrom, List.filter_append]
      cases i with
      | zero =>
          obtain rfl : other = line := by simpa using h
          have hlater : (findFrom search (first + 1) visible).filter
              (fun m => m.line == first + 0) = [] := by
            rw [List.filter_eq_nil_iff]
            intro m hm hline
            have hle := le_line_of_mem_findFrom hm
            have heq := beq_iff_eq.mp hline
            omega
          rw [hlater, List.append_nil, List.filter_map]
          simp [Function.comp_def]
      | succ i =>
          have hrest := ih (by simpa using h) (first + 1)
          have hplace : first + 1 + i = first + (i + 1) := by omega
          rw [hplace] at hrest
          rw [hrest, List.filter_map]
          simp [Function.comp_def]

variable {cap : Nat} {p : Pager}

/-- The highlights of a line are what is found in it, as far as it is shown. -/
theorem Derived.highlights_eq (h : p.Derived cap) {line : List Char} {place : Nat}
    (hline : p.visible[place]? = some line) (size : Nat) :
    p.highlights place size =
      ((findSpans (lower p.search) line).filter fun span => span.1 < size).map
        fun span => (span.1, min span.2 size) := by
  have hfound : p.found = findFrom p.search 0 p.visible := by
    rw [h.found, findFrom_eq]
    rfl
  have hmatches := filter_findFrom p.search hline 0
  rw [Nat.zero_add, ← hfound] at hmatches
  have hboth : (fun m : Match => m.line == place && decide (m.begins < size)) =
      fun m => decide (m.begins < size) && m.line == place := by
    funext m
    exact Bool.and_comm _ _
  unfold highlights
  rw [hboth, ← List.filter_filter, hmatches, List.filter_map, List.map_map]
  rfl

theorem Derived.mem_view (h : p.Derived cap) {shown : PagerLine} (hshown : shown ∈ p.view) :
    ∃ line, shown.text = line.take p.width ∧ shown.highlights =
      ((findSpans (lower p.search) line).filter fun span => span.1 < byteLength shown.text).map
        fun span => (span.1, min span.2 (byteLength shown.text)) := by
  obtain ⟨⟨line, place⟩, hplace, rfl⟩ := List.mem_map.mp hshown
  obtain ⟨hle, hwindow⟩ := List.mem_zipIdx_iff_le_and_getElem?_sub.mp hplace
  have hline : p.visible[place]? = some line := by
    rw [List.getElem?_take] at hwindow
    split at hwindow
    · rwa [List.getElem?_drop, Nat.add_sub_cancel' hle] at hwindow
    · cases hwindow
  exact ⟨line, rfl, h.highlights_eq hline _⟩

/-- All highlights of a line that is shown can be marked. -/
theorem Derived.markable (h : p.Derived cap) {shown : PagerLine} (hshown : shown ∈ p.view) :
    shown.highlights.Pairwise Apart ∧
      (∀ span ∈ shown.highlights, span.2 ≤ byteLength shown.text) ∧
      ∀ span ∈ shown.highlights, Screen.Markable shown.text 0 span := by
  obtain ⟨line, htext, hhighlights⟩ := h.mem_view hshown
  have hprefix : shown.text <+: line := htext ▸ List.take_prefix p.width line
  rw [hhighlights]
  refine ⟨?_, ?_, ?_⟩
  · -- To be cut short brings no span nearer to the next one.
    rw [List.pairwise_map]
    apply ((findSpans_apart (lower p.search) line).filter _).imp
    intro a b hapart
    exact (Nat.min_le_left _ _).trans hapart
  · intro span hspan
    obtain ⟨found, -, rfl⟩ := List.mem_map.mp hspan
    exact Nat.min_le_right _ _
  · intro span hspan
    obtain ⟨found, hfound, rfl⟩ := List.mem_map.mp hspan
    obtain ⟨hmem, hlt⟩ := List.mem_filter.mp hfound
    obtain ⟨hnonempty, hbegins, hends⟩ := findSpans_bounds hmem
    have hlt := of_decide_eq_true hlt
    have hend : IsBoundary shown.text (min found.2 (byteLength shown.text)) := by
      rcases Nat.le_total found.2 (byteLength shown.text) with hinside | hbeyond
      · rw [Nat.min_eq_left hinside]
        exact hends.of_le hprefix hinside
      · rw [Nat.min_eq_right hbeyond]
        exact isBoundary_byteLength shown.text
    constructor
    · exact Nat.zero_le _
    · show found.1 < min (min found.2 (byteLength shown.text)) (byteLength shown.text)
      omega
    · exact hbegins.of_le hprefix hlt.le
    · rwa [Nat.min_eq_left (Nat.min_le_right _ _)]

end Pager

namespace Screen

/-- **Highlights.** A line is written in parts that are slices of it, whatever is to be highlighted,
and but for how it looks it is written as it is without highlights. In the lines that a pager shows,
all highlights are marked, and marked from end to end. -/
theorem highlights_marked {cap : Nat} {texts : List (List Char)} {p : Pager}
    (hp : Pager.Given cap texts p) (theme : Theme) :
    (∀ width line, ∃ parts, LineWritten theme width line parts) ∧
      ∀ line ∈ p.view, ∀ parts, LineWritten theme p.width line parts →
        (parts.filter Stretch.marked).map Stretch.span = line.highlights := by
  refine ⟨line_written theme, ?_⟩
  intro line hline parts hparts
  have hderived := hp.kept.toDerived
  obtain ⟨hapart, hends, hmarkable⟩ := hderived.markable hline
  have hwhole : line.text.take p.width = line.text := by
    obtain ⟨full, htext, -⟩ := hderived.mem_view hline
    rw [htext, List.take_take, Nat.min_self]
  have hwritten := hparts.written
  rw [hwhole] at hwritten
  exact hwritten.marked_eq hmarkable hends hapart

/-- The line is cut inside what is found second. -/
theorem highlights_marked_of_cut :
    let text : List Char := ['G', 'r', 'ü', 'ß', 'e', ' ', 'G', 'R', 'Ü']
    let p := ((Pager.new "text" text 100).resize 8 5).setSearch ['g', 'R', 'ü']
    Pager.Given 100 [text] p ∧ ∃ line ∈ p.view, line.text = text.take 8 ∧
      ∃ parts, LineWritten .monochrome p.width line parts ∧
        (parts.filter Stretch.marked).map Stretch.span = [(0, 4), (8, 10)] := by
  intro text p
  have hp : Pager.Given 100 [text] p :=
    ((Pager.Given.new "text" text).change (.resize 8 5)).change (.setSearch ['g', 'R', 'ü'])
  have hview : p.view = [⟨text.take 8, [(0, 4), (8, 10)], true⟩] := by decide
  obtain ⟨hwritten, hmarked⟩ := highlights_marked hp .monochrome
  have hline : ⟨text.take 8, [(0, 4), (8, 10)], true⟩ ∈ p.view :=
    hview ▸ List.mem_singleton_self _
  obtain ⟨parts, hparts⟩ := hwritten p.width ⟨text.take 8, [(0, 4), (8, 10)], true⟩
  exact ⟨hp, _, hline, rfl, parts, hparts, hmarked _ hline parts hparts⟩

end Screen

end Dockboard
