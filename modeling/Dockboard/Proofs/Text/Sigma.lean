import Dockboard.Proofs.Text.Search

set_option autoImplicit false

/-! # The lower case of a text and of its characters

The lower case of a text is that of its characters, one by one, save that a capital sigma at the end
of a word becomes `ς`, where by itself it is `σ`. A filter compares texts, and a search characters.

    HasFinalSigma s   a capital sigma of `s` stands at the end of a word
    blur              the character that `σ` and `ς` are both taken for

The two lower cases of a text are the same exactly if it has no final sigma (`lower_eq_fold_iff`),
and what contains neither `σ` nor `ς` occurs in both or in none (`infix_lower_iff`). A search finds
a text in a line exactly if it occurs in the lower-cased characters (`findSpans_eq_nil_iff`).
-/

namespace Dockboard.Text

/-- A capital sigma of the text stands at the end of a word: the next character before it has case,
and the next one behind it has none, those not counted that are passed over. -/
def HasFinalSigma (s : List Char) : Prop :=
  ∃ before rest, s = before ++ capitalSigma :: rest ∧
    meetsCased before.reverse = true ∧ meetsCased rest = false

/-! ## Characters one by one -/

theorem foldChar_capitalSigma : foldChar capitalSigma = ['σ'] := by decide

theorem foldChar_ne_nil (c : Char) : foldChar c ≠ [] := by
  unfold foldChar
  split
  · exact List.cons_ne_nil _ _
  · split <;> exact List.cons_ne_nil _ _

theorem fold_cons (c : Char) (s : List Char) : fold (c :: s) = foldChar c ++ fold s := rfl

theorem fold_append (s t : List Char) : fold (s ++ t) = fold s ++ fold t := List.flatMap_append

theorem fold_infix_fold {s t : List Char} (h : s <:+: t) : fold s <:+: fold t := by
  obtain ⟨before, rest, rfl⟩ := h
  rw [fold_append, fold_append]
  exact List.infix_append _ _ _

/-- The lower case of a character in a text, `before` being what precedes it, nearest first. -/
def lowerChar (before : List Char) (c : Char) (rest : List Char) : List Char :=
  if c = capitalSigma then if meetsCased before && !meetsCased rest then ['ς'] else ['σ']
  else foldChar c

theorem lowerFrom_cons (before : List Char) (c : Char) (rest : List Char) :
    lowerFrom before (c :: rest) = lowerChar before c rest ++ lowerFrom (c :: before) rest :=
  rfl

theorem lowerChar_of_ne {c : Char} (h : c ≠ capitalSigma) (before rest : List Char) :
    lowerChar before c rest = foldChar c :=
  if_neg h

theorem length_lowerChar (before : List Char) (c : Char) (rest : List Char) :
    (lowerChar before c rest).length = (foldChar c).length := by
  by_cases hc : c = capitalSigma
  · rw [hc, foldChar_capitalSigma, lowerChar, if_pos rfl]
    split <;> rfl
  · rw [lowerChar_of_ne hc]

theorem lowerChar_capitalSigma_iff (before rest : List Char) :
    lowerChar before capitalSigma rest = foldChar capitalSigma ↔
      (meetsCased before = true → meetsCased rest = true) := by
  rw [foldChar_capitalSigma, lowerChar, if_pos rfl]
  cases meetsCased before <;> cases meetsCased rest <;> decide

/-! ## The two lower cases -/

theorem length_lowerFrom (before s : List Char) :
    (lowerFrom before s).length = (fold s).length := by
  induction s generalizing before with
  | nil => rfl
  | cons c s ih =>
      rw [lowerFrom_cons, fold_cons, List.length_append, List.length_append, length_lowerChar, ih]

theorem lower_ne_nil {s : List Char} (h : s ≠ []) : lower s ≠ [] := by
  obtain ⟨c, rest, rfl⟩ := List.exists_cons_of_ne_nil h
  have hlength : (lower (c :: rest)).length = (fold (c :: rest)).length := length_lowerFrom _ _
  rw [fold_cons, List.length_append] at hlength
  have hpos := List.length_pos_iff.mpr (foldChar_ne_nil c)
  rw [← List.length_pos_iff]
  omega

/-- Behind `before`, nothing but a final sigma makes a difference. -/
theorem lowerFrom_eq_fold_iff (before s : List Char) :
    lowerFrom before s = fold s ↔ ∀ init rest, s = init ++ capitalSigma :: rest →
      meetsCased (init.reverse ++ before) = true → meetsCased rest = true := by
  induction s generalizing before with
  | nil => simp [lowerFrom, fold]
  | cons c s ih =>
      have hsplit : lowerFrom before (c :: s) = fold (c :: s) ↔
          lowerChar before c s = foldChar c ∧ lowerFrom (c :: before) s = fold s := by
        rw [lowerFrom_cons, fold_cons]
        constructor
        · exact fun hsame => List.append_inj hsame (length_lowerChar before c s)
        · rintro ⟨hfirst, hrest⟩
          rw [hfirst, hrest]
      rw [hsplit, ih]
      constructor
      · rintro ⟨hfirst, hrest⟩ init rest hs
        cases init with
        | nil =>
            obtain ⟨rfl, rfl⟩ := List.cons.inj hs
            exact (lowerChar_capitalSigma_iff before s).mp hfirst
        | cons d init =>
            obtain ⟨rfl, rfl⟩ := List.cons.inj hs
            have hinit := hrest init rest rfl
            rwa [List.reverse_cons, List.append_assoc]
      · intro hall
        refine ⟨?_, fun init rest hs => ?_⟩
        · by_cases hc : c = capitalSigma
          · subst hc
            exact (lowerChar_capitalSigma_iff before s).mpr (hall [] s rfl)
          · exact lowerChar_of_ne hc before s
        · have hinit := hall (c :: init) rest (hs ▸ rfl)
          rwa [List.reverse_cons, List.append_assoc] at hinit

/-- The lower case of a text is that of its characters unless it has a final sigma. -/
theorem lower_eq_fold_iff {s : List Char} : lower s = fold s ↔ ¬ HasFinalSigma s := by
  rw [lower, lowerFrom_eq_fold_iff]
  constructor
  · rintro hall ⟨before, rest, hs, hbefore, hrest⟩
    have hcased := hall before rest hs (by rwa [List.append_nil])
    rw [hrest] at hcased
    cases hcased
  · intro hnone before rest hs hbefore
    by_contra hrest
    rw [List.append_nil] at hbefore
    exact hnone ⟨before, rest, hs, hbefore, eq_false_of_ne_true hrest⟩

theorem HasFinalSigma.ne_nil {s : List Char} (h : HasFinalSigma s) : s ≠ [] := by
  obtain ⟨before, rest, rfl, -⟩ := h
  exact List.append_ne_nil_of_right_ne_nil before (List.cons_ne_nil _ _)

/-- As they are equally long, one contains the other only if it is the other. -/
theorem lower_infix_fold_iff {s : List Char} : lower s <:+: fold s ↔ ¬ HasFinalSigma s := by
  rw [← lower_eq_fold_iff]
  constructor
  · exact fun hinfix => hinfix.eq_of_length (length_lowerFrom [] s)
  · intro hsame
    rw [hsame]

/-! ## Sigmas taken for each other -/

/-- The character that `σ` and `ς` are both taken for. -/
def blur (c : Char) : Char := if c = 'ς' then 'σ' else c

theorem map_blur_lowerFrom (before s : List Char) :
    (lowerFrom before s).map blur = (fold s).map blur := by
  induction s generalizing before with
  | nil => rfl
  | cons c s ih =>
      have hfirst : (lowerChar before c s).map blur = (foldChar c).map blur := by
        by_cases hc : c = capitalSigma
        · rw [hc, foldChar_capitalSigma, lowerChar, if_pos rfl]
          split <;> rfl
        · rw [lowerChar_of_ne hc]
      rw [lowerFrom_cons, fold_cons, List.map_append, List.map_append, hfirst, ih]

theorem map_blur_of_notMem {s : List Char} (h : 'ς' ∉ s) : s.map blur = s := by
  have hself (c : Char) (hc : c ∈ s) : blur c = id c := by
    have hne : c ≠ 'ς' := fun hsigma => h (hsigma ▸ hc)
    exact if_neg hne
  rw [List.map_congr_left hself, List.map_id]

theorem infix_map_blur_iff {needle hay : List Char} (hmiddle : 'σ' ∉ needle)
    (hfinal : 'ς' ∉ needle) : needle <:+: hay.map blur ↔ needle <:+: hay := by
  constructor
  · rintro ⟨before, rest, hhay⟩
    obtain ⟨front, behind, rfl, hfront, -⟩ := List.map_eq_append_iff.mp hhay.symm
    obtain ⟨first, found, rfl, -, hfound⟩ := List.map_eq_append_iff.mp hfront
    have hnone : 'ς' ∉ found := fun hsigma => hmiddle (hfound ▸ List.mem_map_of_mem hsigma)
    rw [← hfound, map_blur_of_notMem hnone]
    exact List.infix_append _ _ _
  · intro hinfix
    exact map_blur_of_notMem hfinal ▸ hinfix.map blur

/-- What contains no sigma occurs in both lower cases of a text, or in none. -/
theorem infix_lower_iff {needle : List Char} (hmiddle : 'σ' ∉ needle) (hfinal : 'ς' ∉ needle)
    (s : List Char) : needle <:+: lower s ↔ needle <:+: fold s := by
  rw [← infix_map_blur_iff hmiddle hfinal, lower, map_blur_lowerFrom,
    infix_map_blur_iff hmiddle hfinal]

/-! ## Where a search finds something -/

theorem unfoldFrom_char (at_ : Nat) (s : List Char) :
    (unfoldFrom at_ s).map Folded.char = fold s := by
  induction s generalizing at_ with
  | nil => rfl
  | cons c s ih =>
      have hfirst : ((foldChar c).map fun low => (⟨low, at_, at_ + c.utf8Size⟩ : Folded)).map
          Folded.char = foldChar c := by
        rw [List.map_map]
        exact List.map_id _
      rw [unfoldFrom, List.map_append, hfirst, ih, fold_cons]

theorem spansFrom_eq_nil_iff {needle : List Char} (h : needle ≠ []) (size : Nat)
    (hay : List Folded) :
    spansFrom needle size 0 hay = [] ↔ ¬ needle <:+: hay.map Folded.char := by
  induction hay with
  | nil => simp [spansFrom, h]
  | cons f hay ih =>
      by_cases hprefix : needle <+: (f :: hay).map Folded.char
      · rw [spansFrom, if_pos (List.isPrefixOf_iff_prefix.mpr hprefix)]
        exact iff_of_false (List.cons_ne_nil _ _) (not_not_intro hprefix.isInfix)
      · rw [spansFrom, if_neg (mt List.isPrefixOf_iff_prefix.mp hprefix), ih, List.map_cons,
          List.infix_cons_iff, ← List.map_cons, or_iff_right hprefix]

theorem findSpans_eq_nil_iff {needle : List Char} (h : needle ≠ []) (line : List Char) :
    findSpans needle line = [] ↔ ¬ needle <:+: fold line := by
  rw [findSpans, if_neg (mt List.isEmpty_iff.mp h), spansFrom_eq_nil_iff h, unfoldFrom_char]

end Dockboard.Text
