import Dockboard.Pager.Basic

set_option autoImplicit false

/-! # What a pager has been given

The lines of a pager, how many of them it holds at most and whether it waits for more are changed by
text that arrives and by the end of its stream alone. Moving the window, searching and filtering
leave them as they are. What the keys do of all this is gone through once (`browse_cases`,
`edit_cases`).
-/

namespace Dockboard

/-- What a pager has been given: its lines, how many of them it holds at most, and its stream. -/
structure Holding where
  lines : List (List Char)
  maxLines : Nat
  stream : StreamState

/-- What a pager has been given, with more text read after its lines. -/
def Holding.append (held : Holding) (text : List Char) : Holding :=
  { held with lines := Pager.appendText held.maxLines held.lines text }

namespace Pager

/-! ## Keys -/

/-- What a key can do while no prompt is open. -/
theorem browse_cases {motive : Pager → Prop} (p : Pager) (key : Key) (stays : motive p)
    (up : ∀ n, motive (p.scrollUp n)) (down : ∀ n, motive (p.scrollDown n))
    (top : motive { p with follow := false, offset := 0 })
    (last : motive { p with offset := p.maxOffset })
    (follows : ∀ follow, motive (p.setFollow follow))
    (prompts : ∀ mode input, motive { p with mode, input })
    (steps : ∀ forward, motive (p.stepMatch forward)) : motive (p.browse key).1 := by
  unfold browse
  -- One case for each pattern of the keys, in their order.
  split
  · exact stays
  · exact stays
  · exact up 1
  · exact up 1
  · exact down 1
  · exact down 1
  · exact up _
  · exact up _
  · exact down _
  · exact down _
  · split
    · exact up _
    · exact stays
  · split
    · exact down _
    · exact stays
  · exact top
  · exact top
  · exact last
  · exact last
  · exact follows _
  · exact prompts .searching []
  · exact prompts .filtering p.filter
  · exact steps true
  · exact steps false
  · exact stays

/-- What a key can do while a prompt is open. -/
theorem edit_cases {motive : Pager → Prop} (p : Pager) (key : Key)
    (typed : ∀ input, motive { p with input })
    (confirmed : key.code = .enter → motive p.confirmPrompt)
    (cancelled : key.code = .esc → motive p.cancelPrompt) : motive (p.edit key) := by
  unfold edit
  split
  · next hcode => exact confirmed hcode
  · next hcode => exact cancelled hcode
  · exact typed _
  · split
    · exact typed p.input
    · exact typed _
  · exact typed p.input

/-! ## What is left as it is -/

/-- What a pager has been given. -/
def holding (p : Pager) : Holding where
  lines := p.lines
  maxLines := p.maxLines
  stream := p.stream

@[simp] theorem settleFollowing_holding (p : Pager) : p.settleFollowing.holding = p.holding := by
  unfold settleFollowing
  split <;> rfl

@[simp] theorem resize_holding (p : Pager) (width height : Nat) :
    (p.resize width height).holding = p.holding :=
  settleFollowing_holding _

@[simp] theorem jumpToCurrent_holding (p : Pager) : p.jumpToCurrent.holding = p.holding := by
  unfold jumpToCurrent
  split <;> rfl

@[simp] theorem stepMatch_holding (p : Pager) (forward : Bool) :
    (p.stepMatch forward).holding = p.holding := by
  simp only [stepMatch]
  split
  · rfl
  · exact jumpToCurrent_holding _

theorem confirmPrompt_holding (p : Pager) : p.confirmPrompt.holding = p.holding := by
  unfold confirmPrompt
  cases p.mode with
  | browsing => rfl
  | searching => exact jumpToCurrent_holding _
  | filtering => rfl

theorem cancelPrompt_holding (p : Pager) : p.cancelPrompt.holding = p.holding := by
  unfold cancelPrompt
  split <;> rfl

theorem browse_holding (p : Pager) (key : Key) : (p.browse key).1.holding = p.holding :=
  browse_cases (motive := fun q => q.holding = p.holding) p key rfl (fun _ => rfl) (fun _ => rfl)
    rfl rfl (fun _ => rfl) (fun _ _ => rfl) p.stepMatch_holding

theorem edit_holding (p : Pager) (key : Key) : (p.edit key).holding = p.holding :=
  edit_cases (motive := fun q => q.holding = p.holding) p key (fun _ => rfl)
    (fun _ => p.confirmPrompt_holding) fun _ => p.cancelPrompt_holding

/-- Keys leave what a pager has been given as it is. -/
theorem press_holding (p : Pager) (key : Key) : (p.press key).1.holding = p.holding := by
  unfold press
  cases p.mode with
  | browsing => exact browse_holding p key
  | searching => exact edit_holding p key
  | filtering => exact edit_holding p key

theorem append_holding (p : Pager) (text : List Char) :
    (p.append text).holding = p.holding.append text :=
  settleFollowing_holding _

@[simp] theorem resize_stream (p : Pager) (width height : Nat) :
    (p.resize width height).stream = p.stream :=
  congrArg Holding.stream (p.resize_holding width height)

@[simp] theorem append_stream (p : Pager) (text : List Char) :
    (p.append text).stream = p.stream :=
  congrArg Holding.stream (p.append_holding text)

@[simp] theorem press_stream (p : Pager) (key : Key) : (p.press key).1.stream = p.stream :=
  congrArg Holding.stream (p.press_holding key)

/-- A stream that has been live is closed when it ends. -/
theorem close_stream_ne_live (p : Pager) (error : Option String) :
    (p.close error).stream ≠ .live := by
  unfold close
  split
  · nofun
  · assumption

end Pager

end Dockboard
