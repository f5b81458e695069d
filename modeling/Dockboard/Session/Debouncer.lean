import Dockboard.View

set_option autoImplicit false

/-! # Gathering reports of changes

Reports come in bursts, so they are gathered for a while and lead to one refresh. The first
report starts a timer; when it fires, everything gathered is handed out.
-/

namespace Dockboard

/-- Reports that are being gathered. -/
structure Debouncer where
  /-- For how long they are gathered, in milliseconds. -/
  window : Nat
  /-- The kinds reported so far, each once and in order. -/
  pending : List ResourceKind := []
  /-- Whether the timer is running. -/
  armed : Bool := false
  deriving DecidableEq, Repr

namespace Debouncer

/-- The kinds with one more among them. -/
def insert (kind : ResourceKind) (kinds : List ResourceKind) : List ResourceKind :=
  ResourceKind.all.filter fun k => k == kind || kinds.contains k

/-- Take note of a report; the answer is the delay of a timer that has to be started. -/
def notify (d : Debouncer) (kind : ResourceKind) : Debouncer × Option Nat :=
  ({ d with pending := insert kind d.pending, armed := true },
   if d.armed then none else some d.window)

/-- Hand out what has been gathered, as the timer has fired. -/
def flush (d : Debouncer) : Debouncer × List ResourceKind :=
  ({ d with pending := [], armed := false }, d.pending)

end Debouncer

end Dockboard
