import Dockboard.Proofs.Pager
import Dockboard.Proofs.Pager.Window

set_option autoImplicit false

/-! # The lines of a pager

Lines are dropped from the beginning of a pager while text arrives at its end. The text continues
the open line alone, so that nothing is lost or changed by dropping lines early:

    latest n xs           the last `n` of `xs`
    extend lines text     the lines when `text` has been read after them, and none is dropped
    paged lines           whole lines, with an open line after them

A pager of at most `cap` lines holds the last `cap` lines of one that holds them all
(`foldl_appendText`).
-/

namespace Dockboard

open Dockboard.Text

variable {α β : Type}

/-! ## The latest of a list -/

/-- The last `n` of a list, or all of it if it is shorter. -/
def latest (n : Nat) (xs : List α) : List α := xs.drop (xs.length - n)

theorem length_latest (n : Nat) (xs : List α) : (latest n xs).length = min n xs.length := by
  rw [latest, List.length_drop]
  omega

theorem latest_of_length_le {n : Nat} {xs : List α} (h : xs.length ≤ n) : latest n xs = xs := by
  rw [latest, Nat.sub_eq_zero_of_le h, List.drop_zero]

theorem latest_append_of_le {n : Nat} {xs ys : List α} (h : n ≤ ys.length) :
    latest n (xs ++ ys) = latest n ys := by
  unfold latest
  rw [List.length_append, Nat.add_sub_assoc h, List.drop_length_add_append]

/-- Nothing is lost by dropping the oldest early. -/
theorem latest_latest_append (n : Nat) (xs ys : List α) :
    latest n (latest n xs ++ ys) = latest n (xs ++ ys) := by
  by_cases hfew : xs.length ≤ n
  · rw [latest_of_length_le hfew]
  · have hsplit : xs.take (xs.length - n) ++ latest n xs = xs := List.take_append_drop _ _
    have hlength : n ≤ (latest n xs ++ ys).length := by
      rw [List.length_append, length_latest]
      omega
    calc latest n (latest n xs ++ ys)
        = latest n (xs.take (xs.length - n) ++ (latest n xs ++ ys)) :=
          (latest_append_of_le hlength).symm
      _ = latest n (xs ++ ys) := by rw [← List.append_assoc, hsplit]

theorem length_le_flatMap {f : α → List β} (hf : ∀ a, f a ≠ []) (xs : List α) :
    xs.length ≤ (xs.flatMap f).length := by
  induction xs with
  | nil => exact Nat.zero_le _
  | cons a xs ih =>
      have hpos := List.length_pos_iff.mpr (hf a)
      rw [List.flatMap_cons, List.length_append, List.length_cons]
      omega

/-- The latest of lists that are put together come from the latest of these lists. -/
theorem latest_flatMap_latest {f : α → List β} (hf : ∀ a, f a ≠ []) (n : Nat) (xs : List α) :
    latest n ((latest n xs).flatMap f) = latest n (xs.flatMap f) := by
  by_cases hfew : xs.length ≤ n
  · rw [latest_of_length_le hfew]
  · have hsplit : xs.take (xs.length - n) ++ latest n xs = xs := List.take_append_drop _ _
    have hlength : n ≤ ((latest n xs).flatMap f).length := by
      have hlatest := length_le_flatMap hf (latest n xs)
      rw [length_latest] at hlatest
      omega
    conv_rhs => rw [← hsplit, List.flatMap_append, latest_append_of_le hlength]

namespace Pager

/-! ## Text that is read -/

/-- The lines when `text` has been read after them, none of which is dropped. -/
def extend (lines : List (List Char)) (text : List Char) : List (List Char) :=
  if text.isEmpty then lines
  else
    let touched := lines.length - 1
    let joined := continueLines lines (splitOn '\n' text)
    joined.take touched ++ (joined.drop touched).map dropReturn

theorem appendText_of_ne_nil (cap : Nat) (lines : List (List Char)) {text : List Char}
    (h : text ≠ []) : appendText cap lines text = capLines cap (extend lines text) := by
  unfold appendText extend
  rw [if_neg (mt List.isEmpty_iff.mp h), if_neg (mt List.isEmpty_iff.mp h)]

theorem splitOn_ne_nil (sep : Char) (s : List Char) : splitOn sep s ≠ [] := by
  cases s with
  | nil => exact List.cons_ne_nil _ _
  | cons c rest =>
      unfold splitOn
      split
      · exact List.cons_ne_nil _ _
      · split <;> exact List.cons_ne_nil _ _

theorem continueLines_append {lines : List (List Char)} (h : lines ≠ [])
    (before pieces : List (List Char)) :
    continueLines (before ++ lines) pieces = before ++ continueLines lines pieces := by
  induction before with
  | nil => rfl
  | cons line before ih =>
      have hmore : before ++ lines ≠ [] := List.append_ne_nil_of_right_ne_nil before h
      obtain ⟨next, rest, hcons⟩ := List.exists_cons_of_ne_nil hmore
      rw [List.cons_append, List.cons_append, ← ih, hcons]
      rfl

/-- Text changes no line but the open one. -/
theorem extend_append {lines : List (List Char)} (h : lines ≠ []) (before : List (List Char))
    (text : List Char) : extend (before ++ lines) text = before ++ extend lines text := by
  unfold extend
  split
  · rfl
  · have hpos := List.length_pos_iff.mpr h
    have htouched : (before ++ lines).length - 1 = before.length + (lines.length - 1) := by
      rw [List.length_append]
      omega
    simp only [continueLines_append h, htouched, List.take_length_add_append,
      List.drop_length_add_append, List.append_assoc]

/-- After a single line, text continues it. -/
theorem extend_singleton (line : List Char) {text : List Char} (h : text ≠ []) :
    ∃ piece pieces, splitOn '\n' text = piece :: pieces ∧
      extend [line] text = dropReturn (line ++ piece) :: pieces.map dropReturn := by
  obtain ⟨piece, pieces, hsplit⟩ := List.exists_cons_of_ne_nil (splitOn_ne_nil '\n' text)
  refine ⟨piece, pieces, hsplit, ?_⟩
  unfold extend
  rw [if_neg (mt List.isEmpty_iff.mp h), hsplit]
  rfl

/-! ## Lines that are dropped -/

theorem capLines_of_le {cap : Nat} {lines : List (List Char)} (h : contentLength lines ≤ cap) :
    capLines cap lines = lines := by
  rw [capLines, Nat.sub_eq_zero_of_le h, List.drop_zero]

theorem contentLength_append {lines : List (List Char)} (h : lines ≠ [])
    (before : List (List Char)) :
    contentLength (before ++ lines) = before.length + contentLength lines := by
  have hpos := List.length_pos_iff.mpr h
  unfold contentLength
  rw [List.getLast?_append_of_ne_nil before h, List.length_append]
  split <;> omega

/-- Lines before so many that no more are kept are dropped. -/
theorem capLines_append {cap : Nat} (hcap : 0 < cap) {lines : List (List Char)}
    (h : cap ≤ contentLength lines) (before : List (List Char)) :
    capLines cap (before ++ lines) = capLines cap lines := by
  have hne : lines ≠ [] := by
    rintro rfl
    exact absurd (hcap.trans_le h) (by decide)
  unfold capLines
  rw [contentLength_append hne, Nat.add_sub_assoc h, List.drop_length_add_append]

theorem piece_ne_nil {sep : Char} {s piece : List Char} (hs : s ≠ [])
    (h : splitOn sep s = [piece]) : piece ≠ [] := by
  cases s with
  | nil => exact absurd rfl hs
  | cons c rest =>
      unfold splitOn at h
      split at h
      · exact absurd (List.cons.inj h).2 (splitOn_ne_nil sep rest)
      · split at h
        · exact (List.cons.inj h).1 ▸ List.cons_ne_nil _ _
        · exact (List.cons.inj h).1 ▸ List.cons_ne_nil _ _

theorem dropReturn_ne_nil {line : List Char} (h : 1 < line.length) : dropReturn line ≠ [] := by
  unfold dropReturn
  split
  · rw [← List.length_pos_iff, List.length_dropLast]
    omega
  · rw [← List.length_pos_iff]
    omega

theorem contentLength_singleton {line : List Char} (h : line ≠ []) : contentLength [line] = 1 := by
  unfold contentLength
  rw [List.getLast?_singleton, if_neg fun hnone => h (Option.some.inj hnone)]
  rfl

/-- Content does not get less when text is read. -/
theorem contentLength_le_extend (lines : List (List Char)) (text : List Char) :
    contentLength lines ≤ contentLength (extend lines text) := by
  by_cases htext : text = []
  · rw [htext]
    exact Nat.le_refl _
  rcases List.eq_nil_or_concat' lines with rfl | ⟨before, line, rfl⟩
  · exact Nat.zero_le _
  obtain ⟨piece, pieces, hsplit, hextend⟩ := extend_singleton line htext
  have hread : extend [line] text ≠ [] := hextend ▸ List.cons_ne_nil _ _
  rw [extend_append (List.cons_ne_nil _ _), contentLength_append (List.cons_ne_nil _ _),
    contentLength_append hread, hextend]
  refine Nat.add_le_add_left ?_ _
  cases pieces with
  | cons next pieces =>
      -- The line ends in the text.
      have hended : contentLength (dropReturn (line ++ piece) :: (next :: pieces).map dropReturn) =
          1 + contentLength ((next :: pieces).map dropReturn) :=
        contentLength_append (List.cons_ne_nil _ _) [dropReturn (line ++ piece)]
      rw [hended]
      exact (contentLength_le [line]).trans (Nat.le_add_right 1 _)
  | nil =>
      by_cases hline : line = []
      · rw [hline]
        exact Nat.zero_le _
      · have hgrown : 1 < (line ++ piece).length := by
          have hline := List.length_pos_iff.mpr hline
          have hpiece := List.length_pos_iff.mpr (piece_ne_nil htext hsplit)
          rw [List.length_append]
          omega
        rw [contentLength_singleton hline, List.map_nil,
          contentLength_singleton (dropReturn_ne_nil hgrown)]

/-- Text that is read is the same whether lines have been dropped before. -/
theorem capLines_extend_capLines {cap : Nat} (hcap : 0 < cap) (lines : List (List Char))
    (text : List Char) :
    capLines cap (extend (capLines cap lines) text) = capLines cap (extend lines text) := by
  by_cases hfew : contentLength lines ≤ cap
  · rw [capLines_of_le hfew]
  · obtain ⟨before, kept, hkept, hsplit⟩ : ∃ before kept, capLines cap lines = kept ∧
        before ++ kept = lines :=
      ⟨_, _, rfl, List.take_append_drop _ _⟩
    have hle := contentLength_le lines
    have hsome : kept ≠ [] := by
      rw [← hkept, capLines, ← List.length_pos_iff, List.length_drop]
      omega
    have hfull : cap ≤ contentLength (extend kept text) := by
      refine Nat.le_trans ?_ (contentLength_le_extend kept text)
      have hlength := congrArg List.length hkept
      rw [capLines, List.length_drop] at hlength
      have hcontent := contentLength_append hsome before
      have hwhole := congrArg List.length hsplit
      rw [hsplit] at hcontent
      rw [List.length_append] at hwhole
      omega
    rw [hkept, ← hsplit, extend_append hsome, capLines_append hcap hfull]

/-- **Lines that are kept.** A pager holds the last of all lines that have been read. -/
theorem foldl_appendText {cap : Nat} (hcap : 0 < cap) (texts : List (List Char)) :
    texts.foldl (appendText cap) [] = capLines cap (texts.foldl extend []) := by
  induction texts using List.reverseRecOn with
  | nil => exact (capLines_of_le (Nat.zero_le _)).symm
  | append_singleton texts text ih =>
      rw [List.foldl_concat, List.foldl_concat, ih]
      by_cases htext : text = []
      · rw [htext]
        rfl
      · rw [appendText_of_ne_nil _ _ htext, capLines_extend_capLines hcap]

/-- Texts are read one after the other. -/
theorem foldl_append_holding (p : Pager) (texts : List (List Char)) :
    (texts.foldl append p).holding =
      { p.holding with lines := texts.foldl (appendText p.maxLines) p.lines } := by
  induction texts using List.reverseRecOn with
  | nil => rfl
  | append_singleton texts text ih =>
      rw [List.foldl_concat, List.foldl_concat, append_holding, ih]
      rfl

/-! ## Whole lines -/

/-- Whole lines, with an open line after them that is still empty. -/
def paged (lines : List (List Char)) : List (List Char) :=
  if lines = [] then [] else lines ++ [[]]

/-- The lines of a text. -/
def linesOf (text : List Char) : List (List Char) := (splitOn '\n' text).map dropReturn

theorem linesOf_ne_nil (text : List Char) : linesOf text ≠ [] :=
  mt List.map_eq_nil_iff.mp (splitOn_ne_nil '\n' text)

theorem splitOn_concat (sep : Char) (s : List Char) :
    splitOn sep (s ++ [sep]) = splitOn sep s ++ [[]] := by
  induction s with
  | nil => simp [splitOn]
  | cons c s ih =>
      obtain ⟨piece, pieces, hsplit⟩ := List.exists_cons_of_ne_nil (splitOn_ne_nil sep s)
      rw [List.cons_append, splitOn, splitOn, ih, hsplit]
      split <;> rfl

theorem linesOf_concat (text : List Char) : linesOf (text ++ ['\n']) = linesOf text ++ [[]] := by
  rw [linesOf, splitOn_concat, List.map_append]
  rfl

theorem extend_nil {text : List Char} (h : text ≠ []) : extend [] text = linesOf text := by
  unfold extend
  rw [if_neg (mt List.isEmpty_iff.mp h)]
  rfl

theorem extend_open {text : List Char} (h : text ≠ []) : extend [[]] text = linesOf text := by
  obtain ⟨piece, pieces, hsplit, hextend⟩ := extend_singleton [] h
  rw [hextend, linesOf, hsplit]
  rfl

/-- A text that ends its last line adds its lines. -/
theorem extend_paged (lines : List (List Char)) (text : List Char) :
    extend (paged lines) (text ++ ['\n']) = paged (lines ++ linesOf text) := by
  have htext : text ++ ['\n'] ≠ [] := List.append_ne_nil_of_right_ne_nil _ (List.cons_ne_nil _ _)
  have hmore : lines ++ linesOf text ≠ [] :=
    List.append_ne_nil_of_right_ne_nil lines (linesOf_ne_nil text)
  unfold paged
  rw [if_neg hmore]
  by_cases h : lines = []
  · rw [if_pos h, extend_nil htext, linesOf_concat, h, List.nil_append]
  · rw [if_neg h, extend_append (List.cons_ne_nil _ _), extend_open htext, linesOf_concat,
      List.append_assoc]

theorem content_paged (lines : List (List Char)) : content (paged lines) = lines := by
  rw [content_eq]
  unfold paged written
  by_cases h : lines = []
  · rw [h]
    rfl
  · rw [if_neg h, List.getLast?_concat, if_pos rfl, List.dropLast_concat]

theorem capLines_paged {cap : Nat} (hcap : 0 < cap) (lines : List (List Char)) :
    capLines cap (paged lines) = paged (latest cap lines) := by
  have hlength : contentLength (paged lines) = lines.length := by
    rw [← length_written, ← content_eq, content_paged]
  rw [capLines, hlength]
  by_cases h : lines = []
  · simp [h, paged, latest]
  · have hpos := List.length_pos_iff.mpr h
    have hlatest : latest cap lines ≠ [] := by
      rw [← List.length_pos_iff, length_latest]
      omega
    unfold paged
    rw [if_neg h, if_neg hlatest, List.drop_append_of_le_length (Nat.sub_le _ _)]
    rfl

/-- **Texts that end their lines.** What a pager holds of them are their last lines. -/
theorem foldl_appendText_paged {cap : Nat} (hcap : 0 < cap) (texts : List (List Char)) :
    (texts.map (· ++ ['\n'])).foldl (appendText cap) [] =
      paged (latest cap (texts.flatMap linesOf)) := by
  have hall : (texts.map (· ++ ['\n'])).foldl extend [] = paged (texts.flatMap linesOf) := by
    induction texts using List.reverseRecOn with
    | nil => rfl
    | append_singleton texts text ih =>
        rw [List.map_append, List.map_singleton, List.foldl_concat, ih, extend_paged,
          List.flatMap_append, List.flatMap_singleton]
  rw [foldl_appendText hcap, hall, capLines_paged hcap]

/-- It makes no difference to read the latest texts alone, if these are as many as lines are
held. -/
theorem foldl_appendText_latest {cap : Nat} (hcap : 0 < cap) (texts : List (List Char)) :
    ((latest cap texts).map (· ++ ['\n'])).foldl (appendText cap) [] =
      (texts.map (· ++ ['\n'])).foldl (appendText cap) [] := by
  rw [foldl_appendText_paged hcap, foldl_appendText_paged hcap,
    latest_flatMap_latest linesOf_ne_nil]

end Pager

end Dockboard
