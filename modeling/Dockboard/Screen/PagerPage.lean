import Dockboard.Pager.Basic
import Dockboard.Screen.Draw

set_option autoImplicit false

/-! # The page of a pager

A title, the lines of the text with the matches marked, and a footer, which is the prompt while
one is open.
-/

namespace Dockboard.Screen

open Dockboard.Text

/-- What the title says of the stream. -/
def streamNote (p : Pager) : String :=
  match p.stream with
  | .static => ""
  | .live => if p.follow then " [LIVE, FOLLOW]" else " [LIVE]"
  | .closed none => " [CLOSED]"
  | .closed (some error) => s!" [CLOSED: {error}]"

/-- The title of the page. -/
def pagerTitle (p : Pager) : List Char :=
  s!" {p.title}{streamNote p}  {p.lineCount} lines".toList ++
    (if p.filter.isEmpty then []
      else "  filter \"".toList ++ p.filter ++ s!"\" ({p.visible.length})".toList) ++
    (if p.search.isEmpty then []
      else "  search \"".toList ++ p.search ++ s!"\" ({p.found.length} matches)".toList)

/-- The colour of the title. -/
def pagerTitleColor (theme : Theme) (p : Pager) : Color :=
  match p.stream with
  | .closed (some _) => theme.error
  | .live => if p.follow then theme.title else theme.warning
  | _ => theme.title

/-- The keys of a pager, as the footer names them. -/
def pagerHints : String :=
  "q/Esc: Close | ↑/↓ PgUp/PgDn g/G: Scroll | /: Search | n/N: Next/Prev | f: Filter | F: Follow"

/-- The footer of the page. -/
def pagerFooter (p : Pager) : List Char :=
  match p.mode with
  | .searching => '/' :: p.input ++ ['_']
  | .filtering => "filter: ".toList ++ p.input ++ ['_']
  | .browsing => pagerHints.toList

/-- The first `bytes` bytes of `s` and the rest, if that is no cut through a character. -/
def cutAt? : Nat → List Char → Option (List Char × List Char)
  | 0, s => some ([], s)
  | _ + 1, [] => none
  | n + 1, c :: s =>
      if c.utf8Size ≤ n + 1 then
        (cutAt? (n + 1 - c.utf8Size) s).map fun (before, after) => (c :: before, after)
      else none

/-- `rest`, the part from byte `pos` on of a text of `size` bytes, with spans of the text marked
in a colour. A span is left out that begins in a part already written, is empty, or cuts through
a character. -/
def marked (theme : Theme) (color : Color) (size pos : Nat) (rest : List Char) :
    List Span → List Draw
  | [] => [.text rest]
  | (begins, ends) :: spans =>
      let ends := min ends size
      if begins < pos || ends ≤ begins then marked theme color size pos rest spans
      else
        match cutAt? (begins - pos) rest with
        | none => marked theme color size pos rest spans
        | some (before, tail) =>
            match cutAt? (ends - begins) tail with
            | none => marked theme color size pos rest spans
            | some (inside, after) =>
                [.text before, .back color, .fore theme.selectionFore, .text inside,
                 .resetColors] ++ marked theme color size ends after spans

/-- A line of the page. -/
def pagerLine (theme : Theme) (width : Nat) (line : PagerLine) : List Draw :=
  if line.highlights.isEmpty then Draw.line width line.text
  else
    let shown := line.text.take width
    let color := if line.current then theme.currentMatchBack else theme.matchBack
    marked theme color (byteLength shown) 0 shown line.highlights ++
      [.text (List.replicate (width - shown.length) ' '), .newline]

/-- The page of a pager on a screen of `width` by `height`. -/
def pagerPage (theme : Theme) (p : Pager) (width height : Nat) : List Draw :=
  let body := height - 2
  let lines := p.view.take body
  [.fore (pagerTitleColor theme p), .bold] ++ Draw.line width (pagerTitle p) ++
    [.resetColors, .plain] ++ lines.flatMap (pagerLine theme width) ++
    Draw.blankLines (body - lines.length) ++
    [.fore (if p.mode = .browsing then theme.muted else theme.accent),
     .text (fit width (pagerFooter p)), .resetColors]

end Dockboard.Screen
