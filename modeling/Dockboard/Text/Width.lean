set_option autoImplicit false

/-! # Text of a given width

A terminal column is counted as one character. Lines are cut and padded by these functions.
-/

namespace Dockboard.Text

/-- At most `width` characters of `s`; where something is cut off and `width` leaves room for
it, an ellipsis of three dots says so. -/
def ellipsize (width : Nat) (s : List Char) : List Char :=
  if s.length ≤ width then s
  else if width < 4 then s.take width
  else s.take (width - 3) ++ ['.', '.', '.']

/-- `s` with blanks added on the right up to `width` characters. -/
def padRight (width : Nat) (s : List Char) : List Char :=
  s ++ List.replicate (width - s.length) ' '

/-- `s` with blanks added on the left up to `width` characters. -/
def padLeft (width : Nat) (s : List Char) : List Char :=
  List.replicate (width - s.length) ' ' ++ s

/-- `s` cut or padded to exactly `width` characters. -/
def fit (width : Nat) (s : List Char) : List Char := padRight width (s.take width)

theorem length_fit (width : Nat) (s : List Char) : (fit width s).length = width := by
  simp only [fit, padRight, List.length_append, List.length_take, List.length_replicate]
  omega

theorem length_ellipsize_le (width : Nat) (s : List Char) :
    (ellipsize width s).length ≤ width := by
  unfold ellipsize
  split
  · assumption
  · split
    · exact List.length_take_le width s
    · simp only [List.length_append, List.length_take, List.length_cons, List.length_nil]
      omega

end Dockboard.Text
