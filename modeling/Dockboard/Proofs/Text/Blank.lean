import Dockboard.Text.Blank
import Mathlib.Data.List.TakeWhile

set_option autoImplicit false

/-! # Trimming and parting text

What is trimmed has no white space around it, and white space around it is what is trimmed away
(`trim_around`). The first word of a text has none in it, and the text is that word with white space
before it and whatever behind it (`exists_firstWord`). Lines that are joined by line breaks are
parted again (`splitOn_intercalate`).
-/

namespace Dockboard.Text

/-! ## White space -/

/-- The text is white space, if anything. -/
def Blank (s : List Char) : Prop := ∀ c ∈ s, isBlank c = true

instance (s : List Char) : Decidable (Blank s) :=
  decidable_of_iff (s.all isBlank = true) List.all_eq_true

/-- No white space stands at the beginning of the text, nor at its end. -/
def Trimmed (s : List Char) : Prop :=
  (∀ c ∈ s.head?, isBlank c = false) ∧ ∀ c ∈ s.getLast?, isBlank c = false

instance (s : List Char) : Decidable (Trimmed s) :=
  decidable_of_iff ((s.head?.all fun c => !isBlank c) = true ∧
    (s.getLast?.all fun c => !isBlank c) = true) (by simp [Trimmed, Option.all_eq_true])

theorem Blank.append {s t : List Char} (hs : Blank s) (ht : Blank t) : Blank (s ++ t) := by
  intro c hc
  cases List.mem_append.mp hc with
  | inl hc => exact hs c hc
  | inr hc => exact ht c hc

theorem dropWhile_of_head? {p : Char → Bool} {s : List Char} (h : ∀ c ∈ s.head?, p c = false) :
    s.dropWhile p = s := by
  cases s with
  | nil => rfl
  | cons c s => rw [List.dropWhile_cons_of_neg (by simp [h c rfl])]

/-- White space around a text is trimmed away, and no more. -/
theorem trim_around {before text after : List Char} (hbefore : Blank before)
    (hafter : Blank after) (h : Trimmed text) : trim (before ++ (text ++ after)) = text := by
  rw [trim, dropWhileEnd, List.dropWhile_append_of_pos hbefore]
  cases text with
  | nil => simp [List.dropWhile_eq_nil_iff.mpr hafter]
  | cons c text =>
      have hfirst : ∀ c' ∈ (c :: text ++ after).head?, isBlank c' = false := h.1
      have hreverse : Blank after.reverse := fun c hc => hafter c (List.mem_reverse.mp hc)
      have hlast : ∀ c' ∈ (c :: text).reverse.head?, isBlank c' = false := by
        rw [List.head?_reverse]
        exact h.2
      rw [dropWhile_of_head? hfirst, List.reverse_append,
        List.dropWhile_append_of_pos hreverse, dropWhile_of_head? hlast, List.reverse_reverse]

theorem trim_blank {s : List Char} (h : Blank s) : trim s = [] := by
  have hnil : Blank [] := by simp [Blank]
  have htrimmed : Trimmed [] := by simp [Trimmed]
  simpa using trim_around hnil h htrimmed

/-- A text without white space is as it is. -/
theorem trim_of_unblank {s : List Char} (h : ∀ c ∈ s, isBlank c = false) : trim s = s := by
  have hnil : Blank [] := by simp [Blank]
  have htrimmed : Trimmed s :=
    ⟨fun c hc => h c (List.mem_of_head? hc), fun c hc => h c (List.mem_of_getLast? hc)⟩
  simpa using trim_around hnil hnil htrimmed

/-- The first word is what stands between white space and more white space or the end. -/
theorem firstWord_around {before word after : List Char} (hbefore : Blank before)
    (hword : ∀ c ∈ word, isBlank c = false) (hne : word ≠ [])
    (hafter : ∀ c ∈ after.head?, isBlank c = true) :
    firstWord (before ++ word ++ after) = word := by
  have hfirst : ∀ c ∈ (word ++ after).head?, isBlank c = false := by
    cases word with
    | nil => exact absurd rfl hne
    | cons c word =>
        rintro _ ⟨⟩
        exact hword c List.mem_cons_self
  have hinside : ∀ c ∈ word, (!isBlank c) = true := fun c hc => by simp [hword c hc]
  have hbehind : after.takeWhile (fun c => !isBlank c) = [] := by
    cases after with
    | nil => rfl
    | cons c after => rw [List.takeWhile_cons_of_neg (by simp [hafter c rfl])]
  rw [firstWord, List.append_assoc, List.dropWhile_append_of_pos hbefore,
    dropWhile_of_head? hfirst, List.takeWhile_append_of_pos hinside, hbehind, List.append_nil]

/-- The first word stands somewhere in the text. -/
theorem exists_firstWord (s : List Char) : ∃ before after, s = before ++ firstWord s ++ after ∧
    Blank before ∧ (∀ c ∈ firstWord s, isBlank c = false) ∧
    ∀ c ∈ after.head?, isBlank c = true := by
  refine ⟨s.takeWhile isBlank, (s.dropWhile isBlank).dropWhile fun c => !isBlank c, ?_,
    fun c hc => List.mem_takeWhile_imp hc, fun c hc => ?_, fun c hc => ?_⟩
  · rw [firstWord, List.append_assoc, List.takeWhile_append_dropWhile,
      List.takeWhile_append_dropWhile]
  · simpa using List.mem_takeWhile_imp hc
  · have hnot := List.head?_dropWhile_not (fun c => !isBlank c) (s.dropWhile isBlank)
    rw [Option.mem_def.mp hc] at hnot
    simpa using hnot

/-! ## Parting -/

theorem splitOnce_append {sep : Char} {before : List Char} (h : sep ∉ before)
    (after : List Char) : splitOnce sep (before ++ sep :: after) = some (before, after) := by
  induction before with
  | nil => simp [splitOnce]
  | cons c before ih =>
      rw [List.mem_cons, not_or] at h
      rw [List.cons_append, splitOnce, if_neg (Ne.symm h.1), ih h.2]
      rfl

theorem splitOnce_eq_none {sep : Char} {s : List Char} (h : sep ∉ s) : splitOnce sep s = none := by
  induction s with
  | nil => rfl
  | cons c s ih =>
      rw [List.mem_cons, not_or] at h
      rw [splitOnce, if_neg (Ne.symm h.1), ih h.2]
      rfl

theorem splitOn_of_notMem {sep : Char} {s : List Char} (h : sep ∉ s) : splitOn sep s = [s] := by
  induction s with
  | nil => rfl
  | cons c s ih =>
      rw [List.mem_cons, not_or] at h
      rw [splitOn, if_neg (Ne.symm h.1), ih h.2]

theorem splitOn_append_cons {sep : Char} {line : List Char} (h : sep ∉ line) (s : List Char) :
    splitOn sep (line ++ sep :: s) = line :: splitOn sep s := by
  induction line with
  | nil => simp [splitOn]
  | cons c line ih =>
      rw [List.mem_cons, not_or] at h
      rw [List.cons_append, splitOn, if_neg (Ne.symm h.1), ih h.2]

/-- What is joined is parted again. -/
theorem splitOn_intercalate {sep : Char} {lines : List (List Char)} (hne : lines ≠ [])
    (h : ∀ line ∈ lines, sep ∉ line) : splitOn sep (List.intercalate [sep] lines) = lines := by
  induction lines with
  | nil => exact absurd rfl hne
  | cons line lines ih =>
      obtain ⟨hline, hlines⟩ := List.forall_mem_cons.mp h
      cases lines with
      | nil => simpa [List.intercalate] using splitOn_of_notMem hline
      | cons next lines =>
          rw [List.intercalate_cons_cons, List.append_assoc, List.singleton_append,
            splitOn_append_cons hline, ih (List.cons_ne_nil _ _) hlines]

theorem filledLines_intercalate {lines : List (List Char)} (h : ∀ line ∈ lines, '\n' ∉ line) :
    filledLines (List.intercalate ['\n'] lines) =
      (lines.map trim).filter fun line => !line.isEmpty := by
  by_cases hne : lines = []
  · subst hne
    rfl
  · rw [filledLines, splitOn_intercalate hne h]

end Dockboard.Text
