import Dockboard.Binary64

set_option autoImplicit false

/-! # Sizes, ages and times of day as they are shown -/

namespace Dockboard.Measure

open Dockboard.Text

/-- Divide `value` by a thousand as long as that brings it into the range of a larger unit. -/
def scaleUnit (value : Float) (unit : String) : List String → Float × String
  | [] => (value, unit)
  | larger :: more =>
      if value ≥ 1000.0 then scaleUnit (value / 1000.0) larger more else (value, unit)

/-- A count of bytes: whole below a thousand, else with one place and a decimal unit. -/
def bytes (n : Nat) : String :=
  if n < 1000 then s!"{n} B"
  else
    let (value, unit) := scaleUnit (Binary64.ofCount n).toFloat "B" ["kB", "MB", "GB", "TB"]
    s!"{String.ofList (Binary64.fixed 1 (.ofFloat value))} {unit}"

/-- The two largest units of the time since `created`, in unix seconds; a thing whose time of
creation is not known has none. -/
def age (now created : Int) : String :=
  if created ≤ 0 then "unknown"
  else
    let secs := (now - created).toNat
    if secs < 60 then s!"{secs}s"
    else if secs < 3600 then s!"{secs / 60}m"
    else if secs < 86400 then s!"{secs / 3600}h {secs % 3600 / 60}m"
    else s!"{secs / 86400}d {secs % 86400 / 3600}h"

/-- The first second of the calendar's first year. -/
def calendarStart : Int := -8334601228800

/-- The last second of the calendar's last year. -/
def calendarEnd : Int := 8210266876799

/-- The time of day at `time`, in unix seconds; dashes for a time outside the calendar. -/
def timeOfDay (time : Int) : String :=
  if calendarStart ≤ time ∧ time ≤ calendarEnd then
    let secs := (time % 86400).toNat
    let two := fun n => String.ofList (Numeral.padded 2 n)
    s!"{two (secs / 3600)}:{two (secs % 3600 / 60)}:{two (secs % 60)}"
  else "--:--:--"

end Dockboard.Measure
