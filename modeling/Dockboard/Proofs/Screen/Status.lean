import Dockboard.Proofs.Screen.Frame

set_option autoImplicit false

/-! # Failures in the status line

What fails is told in the status line, which is cut to the width of the screen. There a line break
counts as one character like any other.

    text      Failed to remove stack web: docker stack failed: first⏎second
    screen    Failed to remove stack web: docker stack failed: first
              second
              ^r: Remove | ?: Help

So the line breaks among the characters that have room are sent along (`count_statusLine`), and each
of them leaves the footer one row further down than the last one of the screen.
-/

namespace Dockboard

/-- What a message says has failed. -/
def Msg.failureText? : Msg → Option String
  | .loadFailed view error => some s!"Loading {view.title} failed: {error}"
  | .textFailed title error => some s!"{title}: {error}"
  | .operationFailed op error => some s!"Failed to {op.label}: {error}"
  | _ => none

/-- A failure is told as an error, word for word. -/
theorem State.step_failure {msg : Msg} {text : String} (h : msg.failureText? = some text)
    (s : State) : ∃ seq, (s.step msg).1.status = some { text, isError := true, seq } := by
  cases msg <;> cases h <;> exact ⟨_, rfl⟩

theorem State.run_failure (config : Config) (now : Int) (events : List Event) {failed : Event}
    {msg : Msg} {text : String} (hmsg : failed.msg? = some msg)
    (htext : msg.failureText? = some text) :
    ∃ seq, ((State.new config now).run (events ++ [failed])).status =
      some { text, isError := true, seq } := by
  rw [State.run_concat]
  cases failed with
  | begin => cases hmsg
  | input msg' =>
      cases hmsg
      exact State.step_failure htext _
  | answer cmd number msg' =>
      cases hmsg
      exact State.step_failure htext _

namespace Screen

open Dockboard.Text Draw

/-! ## Line breaks in a line -/

theorem count_fit {c : Char} (hblank : c ≠ ' ') (width : Nat) (s : List Char) :
    (fit width s).count c = (s.take width).count c := by
  have hpad (n : Nat) : (List.replicate n ' ').count c = 0 := by
    rw [List.count_eq_zero, List.mem_replicate]
    exact fun h => hblank h.2
  rw [fit, padRight, List.count_append, hpad, Nat.add_zero]

theorem statusLine_spelled (theme : Theme) (s : State) :
    spelled (statusLine theme s) = fit s.width (statusText s) := by
  unfold statusLine statusText
  cases s.status <;> simp [status, Draw.line, spelling]

/-- **The status line** ends with a line break, and those that its text holds come before that. -/
theorem count_statusLine (theme : Theme) (s : State) {c : Char} (h : IsBreak c) :
    (writeAll (statusLine theme s)).toList.count c =
      1 + ((statusText s).take s.width).count c := by
  have hblank : c ≠ ' ' := by rcases h with rfl | rfl <;> decide
  rw [count_writeAll h, (statusLine_writes theme s).breaks, statusLine_spelled, count_fit hblank]
  rfl

/-! ## The frame around it -/

/-- What a frame draws before the status line. -/
def frameTop (theme : Theme) (s : State) : List Draw :=
  [.clear, .moveTo 0 0] ++ viewTop theme s

/-- Unless a pager takes the screen, a frame has the status line and the footer. -/
theorem frame_status (theme : Theme) {s : State} (hwidth : minColumns ≤ s.width)
    (hheight : minRows ≤ s.height) (hlayer : ∀ layer, s.layer ≠ some (.pager layer)) :
    ∃ above, frame theme s =
      frameTop theme s ++ statusLine theme s ++
        footer theme (Layout.footerHints s.view).toList s.width ++ above := by
  have hlarge : isLargeEnough s.width s.height = true := by
    simp [isLargeEnough, hwidth, hheight]
  obtain ⟨above, hpage⟩ : ∃ above, page theme s = viewPage theme s ++ above := by
    unfold page
    split
    · next layer hpager => exact absurd hpager (hlayer layer)
    · exact ⟨_, rfl⟩
    · exact ⟨[], (List.append_nil _).symm⟩
  refine ⟨above, ?_⟩
  rw [frame, if_pos hlarge, hpage, viewPage_top, frameTop]
  simp only [List.append_assoc]

/-- All line breaks of a screen but one stand before the status line, and that one ends it. -/
theorem count_frameTop (theme : Theme) {s : State} (hheight : minRows ≤ s.height)
    (hcounter : (counter s).length ≤ s.width) :
    (frameTop theme s).count .newline + 2 = s.height := by
  obtain ⟨blanks, hlines, hsum⟩ := viewTop_writes theme hheight hcounter
  have hfirst : [Draw.clear, .moveTo 0 0].count .newline = 0 := rfl
  rw [frameTop, List.count_append, hfirst, hlines.breaks, List.length_append,
    List.length_replicate]
  omega

/-- **Failures and line breaks.** When something has failed, its text is shown as an error. The
status line holds the line break at its end, and those among as many characters of the text as the
screen is wide; so it takes one line exactly if there are none. On a screen that is large enough,
the line breaks before the footer are as many more than the screen has room for, as long as no other
text holds one. (Rows are counted in 64 bits.) -/
theorem failure_breaks (theme : Theme) (config : Config) (now : Int) (events : List Event)
    (failed : Event) (msg : Msg) (text : String) (hmsg : failed.msg? = some msg)
    (htext : msg.failureText? = some text) :
    let s := (State.new config now).run (events ++ [failed])
    let inside := fun c => (text.toList.take s.width).count c
    (∃ seq, s.status = some { text, isError := true, seq }) ∧
      (∀ c, IsBreak c → (writeAll (statusLine theme s)).toList.count c = 1 + inside c) ∧
      (minColumns ≤ s.width → minRows ≤ s.height → s.activeTable.rows.length < UInt64.size →
        (∀ layer, s.layer ≠ some (.pager layer)) →
          (∃ above, frame theme s =
            frameTop theme s ++ statusLine theme s ++
              footer theme (Layout.footerHints s.view).toList s.width ++ above) ∧
          (Printable (frameTop theme s) → ∀ c, IsBreak c →
            (writeAll (frameTop theme s ++ statusLine theme s)).toList.count c + 1 =
              s.height + inside c)) := by
  intro s inside
  have hstatus := State.run_failure config now events hmsg htext
  have hshown : statusText s = text.toList := by
    obtain ⟨seq, hseq⟩ := hstatus
    rw [statusText, hseq]
  have hline (c : Char) (hc : IsBreak c) :
      (writeAll (statusLine theme s)).toList.count c = 1 + inside c := by
    rw [count_statusLine theme s hc, hshown]
  refine ⟨hstatus, hline, fun hwidth hheight hrows hlayer =>
    ⟨frame_status theme hwidth hheight hlayer, fun hplain c hc => ?_⟩⟩
  have hbreaks := count_frameTop theme hheight
    (run_counter_le config now (events ++ [failed]) hwidth hrows)
  calc (writeAll (frameTop theme s ++ statusLine theme s)).toList.count c + 1
      = (writeAll (frameTop theme s)).toList.count c +
          (writeAll (statusLine theme s)).toList.count c + 1 := by
        simp [writeAll]
    _ = (frameTop theme s).count .newline + (1 + inside c) + 1 := by
        rw [hplain.count_writeAll hc, hline c hc]
    _ = s.height + inside c := by
        rw [← hbreaks]
        omega

/-- The command that removes a stack fails, and says so in two lines. Both are in the status line,
so that the footer of a screen of 24 lines comes after 24 line breaks. -/
theorem failure_breaks_of_command :
    let failure : Failure := .command "docker stack" "first\nsecond"
    let failed : Event := .input (.operationFailed (.removeStack "web") failure.message)
    let s := (State.new {} 0).run ([.input (.resize 80 24)] ++ [failed])
    (writeAll (statusLine {} s)).toList.count '\n' = 2 ∧
      (∃ above, frame {} s =
        frameTop {} s ++ statusLine {} s ++
          footer {} (Layout.footerHints s.view).toList s.width ++ above) ∧
      (writeAll (frameTop {} s ++ statusLine {} s)).toList.count '\n' = 24 := by
  intro failure failed s
  have hplain : Printable (frameTop {} s) := by decide +kernel
  obtain ⟨-, hline, hframe⟩ := failure_breaks {} {} 0 [.input (.resize 80 24)] failed _ _ rfl rfl
  obtain ⟨hparts, hbreaks⟩ := hframe (by decide) (by decide) (by decide +kernel) nofun
  have hbreak : IsBreak '\n' := Or.inr rfl
  refine ⟨(hline '\n' hbreak).trans (by decide +kernel), hparts, ?_⟩
  exact Nat.succ.inj ((hbreaks hplain '\n' hbreak).trans (by decide +kernel))

end Screen

end Dockboard
