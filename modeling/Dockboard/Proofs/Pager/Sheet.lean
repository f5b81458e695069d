import Dockboard.Proofs.Pager.Lines

set_option autoImplicit false

/-! # The lines of a text

A newline ends a line, and a carriage return directly before it belongs to it. A pager reads a text
in pieces, and takes a carriage return off the end of each piece before it is known what comes
behind it. So it reads the text without these returns (`foldl_extend`).

    sheet text        the lines of a text, the last one open
    dropReturn        a piece without a carriage return at its end
    Lone s t          a carriage return between `s` and `t` belongs to a newline
    Seamless pieces   where a text is cut behind a carriage return, that return is lone,
                      or nothing comes behind it

The lines are those of the whole text exactly if the cuts are seamless: a return that belongs to a
newline may be left out (`sheet_of_lone`), and any other is missing in its line
(`extent_of_not_lone`). The cuts are taken out one after the other, from the left (`sheet_pieces`).
-/

namespace Dockboard

open Dockboard.Text

namespace Pager

/-! ## Pieces between newlines -/

theorem splitOn_cons {sep c : Char} (h : c ≠ sep) (s : List Char) :
    splitOn sep (c :: s) = (splitOn sep s).modifyHead (c :: ·) := by
  obtain ⟨piece, pieces, hsplit⟩ := List.exists_cons_of_ne_nil (splitOn_ne_nil sep s)
  rw [splitOn, if_neg h, hsplit]
  rfl

theorem splitOn_singleton {sep c : Char} (h : c ≠ sep) : splitOn sep [c] = [[c]] :=
  splitOn_cons h []

theorem splitOn_append (sep : Char) (s t : List Char) :
    splitOn sep (s ++ t) = continueLines (splitOn sep s) (splitOn sep t) := by
  induction s with
  | nil =>
      obtain ⟨piece, pieces, hsplit⟩ := List.exists_cons_of_ne_nil (splitOn_ne_nil sep t)
      rw [List.nil_append, hsplit]
      rfl
  | cons c s ih =>
      by_cases hc : c = sep
      · rw [List.cons_append, splitOn, splitOn, if_pos hc, if_pos hc, ih]
        exact (continueLines_append (splitOn_ne_nil sep s) [[]] _).symm
      · obtain ⟨first, more, hs⟩ := List.exists_cons_of_ne_nil (splitOn_ne_nil sep s)
        obtain ⟨piece, pieces, ht⟩ := List.exists_cons_of_ne_nil (splitOn_ne_nil sep t)
        rw [List.cons_append, splitOn_cons hc, splitOn_cons hc, ih, hs, ht]
        cases more <;> rfl

/-- There is a last piece, which text that follows continues. -/
theorem splitOn_eq_concat (sep : Char) (s : List Char) :
    ∃ before line, splitOn sep s = before ++ [line] ∧
      ∀ t, splitOn sep (s ++ t) = before ++ continueLines [line] (splitOn sep t) := by
  obtain ⟨before, line, hs⟩ := (List.eq_nil_or_concat' _).resolve_left (splitOn_ne_nil sep s)
  refine ⟨before, line, hs, fun t => ?_⟩
  rw [splitOn_append, hs, continueLines_append (List.cons_ne_nil _ _)]

theorem splitOn_sep (sep : Char) (s t : List Char) :
    splitOn sep (s ++ sep :: t) = splitOn sep s ++ splitOn sep t := by
  obtain ⟨before, line, hs, hmore⟩ := splitOn_eq_concat sep s
  rw [hmore, splitOn, if_pos rfl, hs, List.append_assoc]
  show before ++ (line ++ []) :: splitOn sep t = _
  rw [List.append_nil]
  rfl

/-- Between an empty first piece and the next one there is a separator. -/
theorem head?_of_splitOn {sep : Char} {s piece : List Char} {pieces : List (List Char)}
    (h : splitOn sep s = [] :: piece :: pieces) : s.head? = some sep := by
  cases s with
  | nil => cases h
  | cons c s =>
      by_cases hc : c = sep
      · rw [hc, List.head?_cons]
      · obtain ⟨first, more, hsplit⟩ := List.exists_cons_of_ne_nil (splitOn_ne_nil sep s)
        rw [splitOn_cons hc, hsplit, List.modifyHead_cons] at h
        cases h

/-! ## Carriage returns at an end -/

theorem dropReturn_concat (line : List Char) (c : Char) :
    dropReturn (line ++ [c]) = if c = '\r' then line else line ++ [c] := by
  simp [dropReturn]

theorem dropReturn_of_getLast? {line : List Char} (h : line.getLast? ≠ some '\r') :
    dropReturn line = line :=
  if_neg h

theorem dropReturn_append (line : List Char) {rest : List Char} (h : rest ≠ []) :
    dropReturn (line ++ rest) = line ++ dropReturn rest := by
  obtain ⟨before, c, rfl⟩ := (List.eq_nil_or_concat' rest).resolve_left h
  rw [← List.append_assoc, dropReturn_concat, dropReturn_concat]
  split
  · rfl
  · exact List.append_assoc _ _ _

theorem dropReturn_cons {c : Char} {line : List Char} (h : line ≠ [] ∨ c ≠ '\r') :
    dropReturn (c :: line) = c :: dropReturn line := by
  rcases h with hline | hc
  · exact dropReturn_append [c] hline
  · cases line with
    | nil => exact (dropReturn_concat [] c).trans (if_neg hc)
    | cons d line => exact dropReturn_append [c] (List.cons_ne_nil d line)

theorem count_dropReturn (line : List Char) : (dropReturn line).count '\n' = line.count '\n' := by
  rcases List.eq_nil_or_concat' line with rfl | ⟨before, c, rfl⟩
  · rfl
  · rw [dropReturn_concat]
    split
    · next hc =>
        rw [hc, List.count_append]
        rfl
    · rfl

theorem count_flatMap_dropReturn (pieces : List (List Char)) :
    (pieces.flatMap dropReturn).count '\n' = pieces.flatten.count '\n' := by
  induction pieces with
  | nil => rfl
  | cons piece pieces ih =>
      rw [List.flatMap_cons, List.flatten_cons, List.count_append, List.count_append,
        count_dropReturn, ih]

/-! ## Sheets -/

/-- The lines of a text, the last of which is open. A newline ends a line, and a carriage return
directly before it belongs to it. -/
def sheet : List Char → List (List Char)
  | [] => [[]]
  | '\n' :: rest => [] :: sheet rest
  | '\r' :: '\n' :: rest => [] :: sheet rest
  | c :: rest => (sheet rest).modifyHead (c :: ·)

theorem sheet_cons {c : Char} {rest : List Char} (hnewline : c ≠ '\n')
    (hreturn : c = '\r' → rest.head? ≠ some '\n') :
    sheet (c :: rest) = (sheet rest).modifyHead (c :: ·) := by
  rw [sheet]
  · exact hnewline
  · rintro after hc rfl
    exact hreturn hc rfl

theorem length_sheet (text : List Char) : (sheet text).length = text.count '\n' + 1 := by
  fun_induction sheet text with
  | case1 => rfl
  | case2 rest ih => rw [List.length_cons, ih, List.count_cons_self]
  | case3 rest ih =>
      rw [List.length_cons, ih, List.count_cons_of_ne (by decide), List.count_cons_self]
  | case4 c rest hnewline _ ih => rw [List.length_modifyHead, ih, List.count_cons_of_ne hnewline]

theorem sheet_ne_nil (text : List Char) : sheet text ≠ [] := by
  rw [← List.length_pos_iff, length_sheet]
  exact Nat.succ_pos _

/-- Lines of which all but the last have come to their end. -/
def ended (lines : List (List Char)) : List (List Char) :=
  lines.dropLast.map dropReturn ++ lines.getLast?.toList

theorem ended_append {lines : List (List Char)} (h : lines ≠ []) (before : List (List Char)) :
    ended (before ++ lines) = before.map dropReturn ++ ended lines := by
  rw [ended, ended, List.dropLast_append_of_ne_nil h, List.getLast?_append_of_ne_nil before h,
    List.map_append, List.append_assoc]

theorem ended_cons (line : List Char) {lines : List (List Char)} (h : lines ≠ []) :
    ended (line :: lines) = dropReturn line :: ended lines :=
  ended_append h [line]

theorem ended_concat (before : List (List Char)) (line : List Char) :
    ended (before ++ [line]) = before.map dropReturn ++ [line] :=
  ended_append (List.cons_ne_nil _ _) before

theorem sheet_eq (text : List Char) : sheet text = ended (splitOn '\n' text) := by
  fun_induction sheet text with
  | case1 => rfl
  | case2 rest ih =>
      rw [splitOn, if_pos rfl, ended_cons _ (splitOn_ne_nil _ _), ih]
      rfl
  | case3 rest ih =>
      rw [splitOn_cons (by decide), splitOn, if_pos rfl, List.modifyHead_cons,
        ended_cons _ (splitOn_ne_nil _ _), ih]
      rfl
  | case4 c rest hnewline hreturn ih =>
      obtain ⟨piece, pieces, hsplit⟩ := List.exists_cons_of_ne_nil (splitOn_ne_nil '\n' rest)
      rw [splitOn_cons hnewline, ih, hsplit, List.modifyHead_cons]
      cases pieces with
      | nil => rfl
      | cons next pieces =>
          -- If `c` is all of its line, a newline comes next, so `c` is no carriage return.
          have hkept : piece ≠ [] ∨ c ≠ '\r' := by
            by_cases hpiece : piece = []
            · obtain ⟨after, rfl⟩ : ∃ after, rest = '\n' :: after :=
                List.head?_eq_some_iff.mp (head?_of_splitOn (hpiece ▸ hsplit))
              exact Or.inr fun hc => hreturn after hc rfl
            · exact Or.inl hpiece
          rw [ended_cons _ (List.cons_ne_nil _ _), ended_cons _ (List.cons_ne_nil _ _),
            dropReturn_cons hkept]
          rfl

/-! ## Text in pieces -/

/-- A piece is read as its lines, without a carriage return at its end. -/
theorem linesOf_eq (text : List Char) : linesOf text = sheet (dropReturn text) := by
  rcases List.eq_nil_or_concat' text with rfl | ⟨s, c, rfl⟩
  · rfl
  obtain ⟨before, line, hs, hmore⟩ := splitOn_eq_concat '\n' s
  rw [dropReturn_concat]
  by_cases hc : c = '\n'
  · subst hc
    rw [if_neg (by decide), linesOf_concat, sheet_eq, splitOn_concat, ended_concat]
    rfl
  · rw [linesOf, hmore, splitOn_singleton hc, List.map_append]
    show before.map dropReturn ++ [dropReturn (line ++ [c])] = _
    rw [dropReturn_concat]
    split
    · rw [sheet_eq, hs, ended_concat]
    · rw [sheet_eq, hmore, splitOn_singleton hc]
      exact (ended_concat _ _).symm

theorem sheet_newline (s t : List Char) : sheet (s ++ '\n' :: t) = linesOf s ++ sheet t := by
  rw [sheet_eq, splitOn_sep, ended_append (splitOn_ne_nil _ _), ← sheet_eq]
  rfl

theorem extend_sheet (s : List Char) {t : List Char} (h : t ≠ []) :
    extend (sheet s) t = sheet (s ++ dropReturn t) := by
  obtain ⟨before, line, hs, hmore⟩ := splitOn_eq_concat '\n' s
  obtain ⟨piece, pieces, ht, hextend⟩ := extend_singleton line h
  rw [← dropReturn_append s h, ← linesOf_eq, linesOf, hmore, ht, List.map_append, sheet_eq, hs,
    ended_concat, extend_append (List.cons_ne_nil _ _), hextend]
  rfl

/-- **Text in pieces.** A carriage return at the end of a piece is not read. -/
theorem foldl_extend (pieces : List (List Char)) :
    pieces.foldl extend [[]] = sheet (pieces.flatMap dropReturn) := by
  induction pieces using List.reverseRecOn with
  | nil => rfl
  | append_singleton pieces piece ih =>
      rw [List.foldl_concat, ih, List.flatMap_append, List.flatMap_singleton]
      by_cases hpiece : piece = []
      · rw [hpiece]
        exact congrArg sheet (List.append_nil _).symm
      · exact extend_sheet _ hpiece

theorem content_foldl_extend (pieces : List (List Char)) :
    content (pieces.foldl extend []) = content (sheet (pieces.flatMap dropReturn)) := by
  rw [← foldl_extend]
  induction pieces with
  | nil => rfl
  | cons piece pieces ih =>
      by_cases hpiece : piece = []
      · rw [hpiece]
        exact ih
      · rw [List.foldl_cons, List.foldl_cons, extend_nil hpiece, extend_open hpiece]

/-! ## Carriage returns between two texts -/

/-- Whether a carriage return between `s` and `t` belongs to a newline: one comes behind it, and no
other carriage return before it. -/
def Lone (s t : List Char) : Prop := s.getLast? ≠ some '\r' ∧ t.head? = some '\n'

/-- How much is written in lines. -/
def extent (lines : List (List Char)) : Nat := lines.flatten.length

theorem extent_content (lines : List (List Char)) : extent (content lines) = extent lines := by
  rw [content_eq, written]
  split
  · next h =>
      obtain ⟨before, rfl⟩ := List.getLast?_eq_some_iff.mp h
      rw [List.dropLast_concat, extent, extent, List.flatten_append]
      exact congrArg List.length (List.append_nil _).symm
  · rfl

theorem extent_sheet_cons {c : Char} {rest : List Char} (hnewline : c ≠ '\n')
    (hreturn : c = '\r' → rest.head? ≠ some '\n') :
    extent (sheet (c :: rest)) = extent (sheet rest) + 1 := by
  obtain ⟨line, lines, hrest⟩ := List.exists_cons_of_ne_nil (sheet_ne_nil rest)
  rw [sheet_cons hnewline hreturn, hrest, List.modifyHead_cons, extent, extent, List.flatten_cons,
    List.flatten_cons, List.cons_append, List.length_cons]

/-- A carriage return is written if no newline comes behind it. -/
theorem extent_return {t : List Char} (ht : t.head? ≠ some '\n') (s : List Char) :
    extent (sheet (s ++ '\r' :: t)) = extent (sheet (s ++ t)) + 1 := by
  fun_induction sheet s with
  | case1 => exact extent_sheet_cons (by decide) fun _ => ht
  | case2 rest ih => exact ih
  | case3 rest ih => exact ih
  | case4 c rest hnewline hreturn ih =>
      have hkept {u : List Char} (hu : u.head? ≠ some '\n') :
          c = '\r' → (rest ++ u).head? ≠ some '\n' := by
        intro hc
        cases rest with
        | nil => exact hu
        | cons d rest => exact fun hd => hreturn rest hc (by cases hd; rfl)
      rw [List.cons_append, List.cons_append, extent_sheet_cons hnewline (hkept (by simp)),
        extent_sheet_cons hnewline (hkept ht), ih]

theorem sheet_of_lone {s t : List Char} (h : Lone s t) :
    sheet (s ++ '\r' :: t) = sheet (s ++ t) := by
  obtain ⟨hs, ht⟩ := h
  obtain ⟨after, rfl⟩ := List.head?_eq_some_iff.mp ht
  have hone : linesOf (s ++ ['\r']) = linesOf s := by
    rw [linesOf_eq, linesOf_eq, dropReturn_concat, if_pos rfl, dropReturn_of_getLast? hs]
  rw [List.append_cons, sheet_newline, sheet_newline, hone]

/-- A carriage return that belongs to no newline is written. -/
theorem extent_of_not_lone {s t : List Char} (h : ¬ Lone s t) :
    extent (sheet (s ++ '\r' :: t)) = extent (sheet (s ++ t)) + 1 := by
  by_cases ht : t.head? = some '\n'
  · -- One of several returns belongs to the newline, and the others are written.
    obtain ⟨before, rfl⟩ : ∃ before, s = before ++ ['\r'] :=
      List.getLast?_eq_some_iff.mp (not_not.mp fun hs => h ⟨hs, ht⟩)
    obtain ⟨after, rfl⟩ := List.head?_eq_some_iff.mp ht
    have hmore : extent (sheet (before ++ ['\r'])) = extent (sheet before) + 1 := by
      simpa using extent_return (t := []) nofun before
    rw [List.append_cons, sheet_newline, sheet_newline, linesOf_eq, linesOf_eq, dropReturn_concat,
      dropReturn_concat, if_pos rfl, if_pos rfl]
    unfold extent at *
    rw [List.flatten_append, List.flatten_append, List.length_append, List.length_append, hmore]
    omega
  · exact extent_return ht s

/-! ## Cuts -/

/-- No carriage return is lost where a text is cut between `s` and `t`: if `s` ends with one, it
belongs to a newline with which `t` begins, or nothing comes behind it. -/
def Joins (s t : List Char) : Prop := ∀ text, s = text ++ ['\r'] → t = [] ∨ Lone text t

/-- No carriage return is lost where a text is cut into pieces. -/
def Seamless (pieces : List (List Char)) : Prop :=
  ∀ before after, pieces = before ++ after → Joins before.flatten after.flatten

theorem joins_of_getLast? {s : List Char} (h : s.getLast? ≠ some '\r') (t : List Char) :
    Joins s t := by
  rintro text rfl
  exact absurd List.getLast?_concat h

theorem joins_nil (t : List Char) : Joins [] t := joins_of_getLast? (by simp) t

theorem joins_concat {s t : List Char} (ht : t ≠ []) : Joins (s ++ ['\r']) t ↔ Lone s t := by
  constructor
  · exact fun h => (h s rfl).resolve_left ht
  · intro h text htext
    obtain ⟨rfl, -⟩ := List.append_inj' htext rfl
    exact Or.inr h

theorem seamless_nil : Seamless [] := by
  intro before after h
  rw [(List.append_eq_nil_iff.mp h.symm).1]
  exact joins_nil _

theorem seamless_singleton (piece : List Char) : Seamless [piece] := by
  intro before after h
  rcases List.append_eq_singleton_iff.mp h.symm with ⟨rfl, rfl⟩ | ⟨rfl, rfl⟩
  · exact joins_nil _
  · exact fun _ _ => Or.inl rfl

theorem seamless_cons_cons {x y : List Char} {rest : List (List Char)} :
    Seamless (x :: y :: rest) ↔ Joins x (y ++ rest.flatten) ∧ Seamless ((x ++ y) :: rest) := by
  constructor
  · intro h
    refine ⟨by simpa using h [x] (y :: rest) rfl, fun before after hsplit => ?_⟩
    cases before with
    | nil => exact joins_nil _
    | cons first before =>
        obtain ⟨rfl, rfl⟩ := List.cons.inj hsplit
        simpa using h (x :: y :: before) after rfl
  · rintro ⟨hfirst, hrest⟩ before after hsplit
    rcases before with _ | ⟨first, _ | ⟨second, before⟩⟩
    · exact joins_nil _
    · cases hsplit
      simpa using hfirst
    · cases hsplit
      simpa using hrest ((x ++ y) :: before) after rfl

/-- Where a piece is cut once more, nothing is lost but a carriage return before the cut. -/
theorem flatMap_dropReturn_cut (x y : List Char) (rest : List (List Char)) :
    ((y = [] ∨ x.getLast? ≠ some '\r') ∧
      (x :: y :: rest).flatMap dropReturn = ((x ++ y) :: rest).flatMap dropReturn) ∨
    (y ≠ [] ∧ ∃ s, x = s ++ ['\r'] ∧
      (x :: y :: rest).flatMap dropReturn = s ++ (y :: rest).flatMap dropReturn ∧
      ((x ++ y) :: rest).flatMap dropReturn = s ++ '\r' :: (y :: rest).flatMap dropReturn) := by
  by_cases hy : y = []
  · refine Or.inl ⟨Or.inl hy, ?_⟩
    rw [hy, List.append_nil]
    rfl
  have hmerged : ((x ++ y) :: rest).flatMap dropReturn = x ++ (y :: rest).flatMap dropReturn := by
    rw [List.flatMap_cons, dropReturn_append x hy, List.append_assoc]
    rfl
  by_cases hx : x.getLast? = some '\r'
  · obtain ⟨s, rfl⟩ := List.getLast?_eq_some_iff.mp hx
    refine Or.inr ⟨hy, s, rfl, ?_, ?_⟩
    · rw [List.flatMap_cons, dropReturn_concat, if_pos rfl]
    · rw [hmerged, ← List.append_cons]
  · refine Or.inl ⟨Or.inr hx, ?_⟩
    rw [hmerged, List.flatMap_cons, dropReturn_of_getLast? hx]

/-- The beginning of a piece is read, unless it is nothing but a carriage return. -/
theorem lone_flatMap_dropReturn {y : List Char} (hy : y ≠ []) (hreturn : y ≠ ['\r'])
    (s : List Char) (rest : List (List Char)) :
    Lone s ((y :: rest).flatMap dropReturn) ↔ Lone s (y ++ rest.flatten) := by
  obtain ⟨c, line, rfl⟩ := List.exists_cons_of_ne_nil hy
  have hkept : line ≠ [] ∨ c ≠ '\r' := by
    by_cases hline : line = []
    · exact Or.inr fun hc => hreturn (by rw [hc, hline])
    · exact Or.inl hline
  rw [List.flatMap_cons, dropReturn_cons hkept]
  rfl

/-- A cut at which no carriage return is lost makes no difference. -/
theorem sheet_cut {x y : List Char} {rest : List (List Char)} (h : Joins x (y ++ rest.flatten)) :
    sheet ((x :: y :: rest).flatMap dropReturn) =
      sheet (((x ++ y) :: rest).flatMap dropReturn) := by
  rcases flatMap_dropReturn_cut x y rest with ⟨-, hsame⟩ | ⟨hy, s, rfl, hcut, hmerged⟩
  · rw [hsame]
  · have hlone : Lone s (y ++ rest.flatten) :=
      (joins_concat (List.append_ne_nil_of_left_ne_nil hy _)).mp h
    have hreturn : y ≠ ['\r'] := by
      rintro rfl
      exact absurd hlone.2 (by simp)
    rw [hcut, hmerged]
    exact (sheet_of_lone ((lone_flatMap_dropReturn hy hreturn s rest).mpr hlone)).symm

/-- A cut adds nothing. -/
theorem extent_cut_le (x y : List Char) (rest : List (List Char)) :
    extent (sheet ((x :: y :: rest).flatMap dropReturn)) ≤
      extent (sheet (((x ++ y) :: rest).flatMap dropReturn)) := by
  rcases flatMap_dropReturn_cut x y rest with ⟨-, hsame⟩ | ⟨-, s, -, hcut, hmerged⟩
  · rw [hsame]
  · rw [hcut, hmerged]
    by_cases hlone : Lone s ((y :: rest).flatMap dropReturn)
    · rw [sheet_of_lone hlone]
    · rw [extent_of_not_lone hlone]
      exact Nat.le_succ _

/-- A cut takes something away if a carriage return is lost there, and none behind it. -/
theorem extent_cut_lt {x y : List Char} {rest : List (List Char)}
    (h : ¬ Joins x (y ++ rest.flatten)) (hseamless : Seamless ((x ++ y) :: rest)) :
    extent (sheet ((x :: y :: rest).flatMap dropReturn)) <
      extent (sheet (((x ++ y) :: rest).flatMap dropReturn)) := by
  have hbehind : Joins (x ++ y) rest.flatten := by simpa using hseamless [x ++ y] rest rfl
  rcases flatMap_dropReturn_cut x y rest with ⟨rfl | hx, -⟩ | ⟨hy, s, rfl, hcut, hmerged⟩
  · exact absurd (by simpa using hbehind) h
  · exact absurd (joins_of_getLast? hx _) h
  rw [joins_concat (List.append_ne_nil_of_left_ne_nil hy _)] at h
  have hlone : ¬ Lone s ((y :: rest).flatMap dropReturn) := by
    by_cases hreturn : y = ['\r']
    · -- Nothing comes behind two returns in a row, for the second one would be lost, too.
      subst hreturn
      have hnothing : rest.flatten = [] := by
        by_contra hmore
        exact ((joins_concat hmore).mp hbehind).1 List.getLast?_concat
      have hempty : rest.flatMap dropReturn = [] := by
        refine List.flatMap_eq_nil_iff.mpr fun piece hpiece => ?_
        rw [List.flatten_eq_nil_iff.mp hnothing piece hpiece]
        rfl
      rw [List.flatMap_cons, hempty]
      exact fun hlone => absurd hlone.2 (by simp [dropReturn])
    · rwa [lone_flatMap_dropReturn hy hreturn]
  rw [hcut, hmerged, extent_of_not_lone hlone]
  exact Nat.lt_succ_self _

/-- Pieces are read like the text that they make up if no carriage return is lost, and less is read
of them if one is. -/
theorem sheet_pieces (x : List Char) (rest : List (List Char)) :
    (Seamless (x :: rest) →
      sheet ((x :: rest).flatMap dropReturn) = sheet (dropReturn (x ++ rest.flatten))) ∧
    (¬ Seamless (x :: rest) →
      extent (sheet ((x :: rest).flatMap dropReturn)) <
        extent (sheet (dropReturn (x ++ rest.flatten)))) := by
  -- The first two pieces are put together, so that the induction is on the number of cuts.
  induction rest generalizing x with
  | nil => exact ⟨fun _ => by simp, fun h => absurd (seamless_singleton x) h⟩
  | cons y rest ih =>
      obtain ⟨hsame, hless⟩ := ih (x ++ y)
      rw [List.append_assoc] at hsame hless
      rw [seamless_cons_cons, List.flatten_cons]
      constructor
      · rintro ⟨hjoins, hseamless⟩
        exact (sheet_cut hjoins).trans (hsame hseamless)
      · intro hlost
        by_cases hseamless : Seamless ((x ++ y) :: rest)
        · rw [← hsame hseamless]
          exact extent_cut_lt (fun hjoins => hlost ⟨hjoins, hseamless⟩) hseamless
        · exact Nat.lt_of_le_of_lt (extent_cut_le x y rest) (hless hseamless)

theorem sheet_of_seamless {pieces : List (List Char)} (h : Seamless pieces) :
    sheet (pieces.flatMap dropReturn) = sheet (dropReturn pieces.flatten) := by
  cases pieces with
  | nil => rfl
  | cons x rest => exact (sheet_pieces x rest).1 h

theorem extent_of_not_seamless {pieces : List (List Char)} (h : ¬ Seamless pieces) :
    extent (sheet (pieces.flatMap dropReturn)) < extent (sheet (dropReturn pieces.flatten)) := by
  cases pieces with
  | nil => exact absurd seamless_nil h
  | cons x rest => exact (sheet_pieces x rest).2 h

end Pager

end Dockboard
