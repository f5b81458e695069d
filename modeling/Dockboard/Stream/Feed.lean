import Dockboard.Failure

set_option autoImplicit false

/-! # Feeds

A feed is what a stream will still deliver: items and failures in order, and after them either
its end or silence.
-/

namespace Dockboard.Stream

/-- What a stream still has to deliver. -/
structure Feed (α : Type) where
  items : List (Except Failure α)
  /-- After the last item the stream stays open and silent. -/
  endless : Bool := false

/-- What a stream answers when it is read. -/
inductive Delivery (α : Type) where
  | item (value : Except Failure α) (rest : Feed α)
  | ended
  /-- Nothing comes any more, but the stream does not end either. -/
  | silence

namespace Feed

variable {α : Type}

/-- A stream that ends at once. -/
def empty : Feed α := ⟨[], false⟩

/-- Read the stream once. -/
def next (feed : Feed α) : Delivery α :=
  match feed.items with
  | value :: rest => .item value { feed with items := rest }
  | [] => if feed.endless then .silence else .ended

end Feed

end Dockboard.Stream
