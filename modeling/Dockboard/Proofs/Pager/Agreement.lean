import Dockboard.Proofs.Pager.Stepping
import Dockboard.Proofs.Text.Sigma

set_option autoImplicit false

/-! # Filters and searches

A filter and a search for the same pattern agree on a line if its lower case is that of its
characters, one by one. So they do on every line without a final sigma, and on no other for all
patterns: a line with a final sigma passes itself as a filter, and is not found by itself.

    Shows p pattern line   `line` is visible when `pattern` is the filter of `p`
    Finds p pattern i      a search for `pattern` finds something in line number `i`
-/

namespace Dockboard

open Dockboard.Text

namespace Pager

/-- The line is visible under a filter. -/
def Shows (p : Pager) (pattern line : List Char) : Prop := line ∈ (p.setFilter pattern).visible

/-- A search finds something in the visible line number `i`. -/
def Finds (p : Pager) (pattern : List Char) (i : Nat) : Prop :=
  ∃ m ∈ (p.setSearch pattern).found, m.line = i

section Agreement

variable {cap i : Nat} {p : Pager} {pattern line : List Char}

theorem shows_iff (hline : line ∈ content p.lines) (hpattern : pattern ≠ []) :
    p.Shows pattern line ↔ lower pattern <:+: lower line := by
  have hvisible : (p.setFilter pattern).visible = (content p.lines).filter (passes pattern) := rfl
  rw [Shows, hvisible, List.mem_filter, passes_iff, Matches, or_iff_right hpattern,
    and_iff_right hline]

theorem setSearch_found (p : Pager) (search : List Char) :
    (p.setSearch search).found = places search p.visible :=
  (jumpToCurrent_found _).trans (research_found _)

/-- A search finds something in a line exactly if the lower-cased characters of the line contain the
lower case of the pattern. -/
theorem finds_iff (hline : p.visible[i]? = some line) (hpattern : pattern ≠ []) :
    p.Finds pattern i ↔ lower pattern <:+: fold line := by
  have hspans : findSpans (lower pattern) line ≠ [] ↔ lower pattern <:+: fold line := by
    rw [Ne, findSpans_eq_nil_iff (lower_ne_nil hpattern), not_not]
  rw [Finds, setSearch_found, ← hspans]
  constructor
  · rintro ⟨m, hm, rfl⟩
    obtain ⟨other, hother, hspan⟩ := mem_places.mp hm
    obtain rfl : other = line := Option.some.inj (hother.symm.trans hline)
    exact List.ne_nil_of_mem hspan
  · intro hsome
    obtain ⟨⟨begins, ends⟩, hspan⟩ := List.exists_mem_of_ne_nil _ hsome
    exact ⟨⟨i, begins, ends⟩, mem_places.mpr ⟨line, hline, hspan⟩, rfl⟩

theorem Derived.visible_eq_content (h : p.Derived cap) (hfilter : p.filter = []) :
    p.visible = content p.lines := by
  rw [h.visible, content_eq, matching, List.filter_eq_self]
  intro line _
  exact decide_eq_true (.inl hfilter)

end Agreement

/-- How filters and searches compare on `line`, the line number `i` of `p`. -/
structure Compared (p : Pager) (i : Nat) (line : List Char) : Prop where
  shows_iff : ∀ pattern, pattern ≠ [] → (p.Shows pattern line ↔ lower pattern <:+: lower line)
  finds_iff : ∀ pattern, pattern ≠ [] → (p.Finds pattern i ↔ lower pattern <:+: fold line)
  /-- They agree for all patterns exactly if the line has no final sigma. -/
  agree_iff : (∀ pattern, pattern ≠ [] → (p.Shows pattern line ↔ p.Finds pattern i)) ↔
    ¬ HasFinalSigma line
  /-- With one, the line passes itself as a filter and is not found by itself. -/
  itself : HasFinalSigma line → p.Shows line line ∧ ¬ p.Finds line i
  /-- They agree on every line for a pattern without sigmas. -/
  sigmaless : ∀ pattern, pattern ≠ [] → 'σ' ∉ lower pattern → 'ς' ∉ lower pattern →
    (p.Shows pattern line ↔ p.Finds pattern i)
  /-- A part of the line is found in it, if it has no final sigma of its own. It passes as a filter,
  if the line has none either. -/
  parts : ∀ part, part ≠ [] → part <:+: line → ¬ HasFinalSigma part →
    p.Finds part i ∧ (¬ HasFinalSigma line → p.Shows part line)

/-- **Filters and searches.** A filter compares the lower cases of texts, and a search those of
characters. On the lines of a pager that is not filtered they agree but for final sigmas. -/
theorem compared_of_given {cap : Nat} {texts : List (List Char)} {p : Pager} {i : Nat}
    {line : List Char} (hp : Given cap texts p) (hfilter : p.filter = [])
    (hline : (content p.lines)[i]? = some line) : p.Compared i line := by
  have hmem : line ∈ content p.lines := List.mem_of_getElem? hline
  have hvisible : p.visible[i]? = some line := by
    rwa [hp.kept.toDerived.visible_eq_content hfilter]
  have hshows {pattern : List Char} (h : pattern ≠ []) := shows_iff hmem h
  have hfinds {pattern : List Char} (h : pattern ≠ []) := finds_iff hvisible h
  have hitself (hsigma : HasFinalSigma line) : p.Shows line line ∧ ¬ p.Finds line i := by
    rw [hshows hsigma.ne_nil, hfinds hsigma.ne_nil, lower_infix_fold_iff]
    exact ⟨List.infix_rfl, not_not_intro hsigma⟩
  constructor
  case shows_iff => exact fun pattern => hshows
  case finds_iff => exact fun pattern => hfinds
  case agree_iff =>
    constructor
    · intro hagree hsigma
      obtain ⟨hself, hnot⟩ := hitself hsigma
      exact hnot ((hagree line hsigma.ne_nil).mp hself)
    · intro hnone pattern h
      rw [hshows h, hfinds h, lower_eq_fold_iff.mpr hnone]
  case itself => exact hitself
  case sigmaless =>
    intro pattern h hmiddle hfinal
    rw [hshows h, hfinds h]
    exact infix_lower_iff hmiddle hfinal line
  case parts =>
    intro part h hpart hnone
    rw [hshows h, hfinds h, lower_eq_fold_iff.mpr hnone]
    refine ⟨fold_infix_fold hpart, fun hplain => ?_⟩
    rw [lower_eq_fold_iff.mpr hplain]
    exact fold_infix_fold hpart

/-- A word in capitals with a sigma at its end passes itself as a filter, and is not found by
itself. A part of it that has none is found. -/
theorem compared_of_capitals :
    let line : List Char := ['Ο', 'Δ', 'Ο', 'Σ', '.']
    let p := new "text" ('a' :: '\n' :: line) 100
    (content p.lines)[1]? = some line ∧ HasFinalSigma line ∧
      p.Shows line line ∧ ¬ p.Finds line 1 ∧
      p.Finds ['Δ', 'Ο'] 1 ∧ (p.Shows ['δ'] line ↔ p.Finds ['δ'] 1) := by
  intro line p
  have hp : Given 100 ['a' :: '\n' :: line] p := .new "text" _
  have hline : (content p.lines)[1]? = some line := by decide
  have hsigma : HasFinalSigma line := ⟨['Ο', 'Δ', 'Ο'], ['.'], rfl, by decide, by decide⟩
  have hpart : ¬ HasFinalSigma ['Δ', 'Ο'] := lower_eq_fold_iff.mp (by decide)
  have hcompared := compared_of_given hp rfl hline
  obtain ⟨hshows, hnot⟩ := hcompared.itself hsigma
  obtain ⟨hfinds, -⟩ := hcompared.parts ['Δ', 'Ο'] (by decide) ⟨['Ο'], ['Σ', '.'], rfl⟩ hpart
  have hagree := hcompared.sigmaless ['δ'] (by decide) (by decide) (by decide)
  exact ⟨hline, hsigma, hshows, hnot, hfinds, hagree⟩

end Pager

end Dockboard
