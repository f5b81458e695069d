import Dockboard.Proofs.Text.Sigma

set_option autoImplicit false

/-! # Spans of a text

A span is counted in bytes of the UTF-8 form, so that one may begin or end inside a character. Those
of the occurrences of a text in a line do not.

    IsBoundary s n          byte `n` of `s` stands between two characters, or at an end
    IsSlice s span text     `text` is what stands at a span of `s`
    Apart a b               the span `b` lies behind the span `a`

A line is searched in its lower-cased characters, each of which knows where the character it comes
from stands. Two of them come from characters one behind the other, or from the same character; in
this case they differ (`unfoldFrom_follows`), so that no two occurrences share a character. This is
why all occurrences lie one behind the other (`findSpans_apart`).
-/

namespace Dockboard.Text

/-! ## Boundaries -/

@[simp] theorem byteLength_append (s t : List Char) :
    byteLength (s ++ t) = byteLength s + byteLength t := by
  induction s with
  | nil => exact (Nat.zero_add _).symm
  | cons c s ih => rw [List.cons_append, byteLength, ih, byteLength, Nat.add_assoc]

theorem byteLength_eq_zero {s : List Char} (h : byteLength s = 0) : s = [] := by
  cases s with
  | nil => rfl
  | cons c s =>
      have hpos := Char.utf8Size_pos c
      rw [byteLength] at h
      omega

/-- Byte `n` of `s` is not inside a character. -/
def IsBoundary (s : List Char) (n : Nat) : Prop := ∃ before, before <+: s ∧ byteLength before = n

theorem isBoundary_byteLength (s : List Char) : IsBoundary s (byteLength s) :=
  ⟨s, List.prefix_rfl, rfl⟩

/-- Two beginnings of a text are one the beginning of the other. -/
theorem prefix_of_byteLength_le {s before first : List Char} (hbefore : before <+: s)
    (hfirst : first <+: s) (h : byteLength before ≤ byteLength first) : before <+: first := by
  rcases List.prefix_or_prefix_of_prefix hbefore hfirst with hle | ⟨more, rfl⟩
  · exact hle
  · rw [byteLength_append] at h
    rw [byteLength_eq_zero (s := more) (by omega), List.append_nil]

/-- A boundary of a text is one of its beginning, as far as that reaches. -/
theorem IsBoundary.of_le {s first : List Char} {n : Nat} (h : IsBoundary s n) (hfirst : first <+: s)
    (hn : n ≤ byteLength first) : IsBoundary first n := by
  obtain ⟨before, hbefore, rfl⟩ := h
  exact ⟨before, prefix_of_byteLength_le hbefore hfirst hn, rfl⟩

/-- `text` is the part of `s` at `span`, neither end of which is inside a character. -/
def IsSlice (s : List Char) (span : Span) (text : List Char) : Prop :=
  ∃ before after, s = before ++ text ++ after ∧ byteLength before = span.1 ∧
    byteLength before + byteLength text = span.2

/-- Slices one behind the other are one slice. -/
theorem IsSlice.append {s text more : List Char} {first middle last : Nat}
    (h : IsSlice s (first, middle) text) (h' : IsSlice s (middle, last) more) :
    IsSlice s (first, last) (text ++ more) := by
  obtain ⟨before, after, hs, hfirst, hmiddle⟩ := h
  obtain ⟨before', after', hs', hmiddle', hlast⟩ := h'
  simp only at hfirst hmiddle hmiddle' hlast
  have hprefix : before' <+: before ++ text := by
    apply prefix_of_byteLength_le (s := s) ⟨more ++ after', by simp [hs']⟩ ⟨after, hs.symm⟩
    rw [byteLength_append]
    omega
  obtain ⟨rest, hrest⟩ := hprefix
  have hnil : rest = [] := by
    have hlength := congrArg byteLength hrest
    simp only [byteLength_append] at hlength
    exact byteLength_eq_zero (by omega)
  rw [hnil, List.append_nil] at hrest
  refine ⟨before, after', ?_, hfirst, ?_⟩
  · rw [hs', hrest, List.append_assoc before]
  · rw [byteLength_append]
    omega

/-- The slice of all bytes is the whole text. -/
theorem IsSlice.eq_of_all {s text : List Char} (h : IsSlice s (0, byteLength s) text) :
    text = s := by
  obtain ⟨before, after, hs, hbefore, htext⟩ := h
  have hafter : after = [] := by
    have hlength := congrArg byteLength hs
    simp only [byteLength_append] at hlength
    exact byteLength_eq_zero (by simp only at htext; omega)
  rw [hs, byteLength_eq_zero hbefore, hafter, List.nil_append, List.append_nil]

/-! ## The lower-cased characters of a line -/

/-- A lower-cased character behind another one comes from a character behind that of the other, or
from the same one, of whose lower case it is a different character. -/
def Follows (f g : Folded) : Prop := f.begins ≤ g.begins ∧ (f.char = g.char → f.ends ≤ g.begins)

/-- The lower case of a character consists of different characters. -/
theorem nodup_foldChar (c : Char) : (foldChar c).Nodup := by
  unfold foldChar
  split
  · exact List.pairwise_singleton _ _
  · split
    · decide
    · exact List.pairwise_singleton _ _

theorem mem_unfoldFrom {at_ : Nat} {line : List Char} {f : Folded}
    (h : f ∈ unfoldFrom at_ line) :
    ∃ before c after, line = before ++ c :: after ∧ f.begins = at_ + byteLength before ∧
      f.ends = f.begins + c.utf8Size := by
  induction line generalizing at_ with
  | nil => cases h
  | cons c line ih =>
      rcases List.mem_append.mp h with hfirst | hrest
      · obtain ⟨low, -, rfl⟩ := List.mem_map.mp hfirst
        exact ⟨[], c, line, rfl, rfl, rfl⟩
      · obtain ⟨before, d, after, rfl, hbegins, hends⟩ := ih hrest
        refine ⟨c :: before, d, after, rfl, ?_, hends⟩
        rw [hbegins, byteLength, Nat.add_assoc]

/-- **Unfolding.** Each lower-cased character follows all those before it. -/
theorem unfoldFrom_follows (at_ : Nat) (line : List Char) :
    (unfoldFrom at_ line).Pairwise Follows := by
  induction line generalizing at_ with
  | nil => exact .nil
  | cons c line ih =>
      refine List.pairwise_append.mpr ⟨?_, ih _, ?_⟩
      · rw [List.pairwise_map]
        exact (nodup_foldChar c).imp fun hne => ⟨Nat.le_refl _, fun hsame => absurd hsame hne⟩
      · intro f hf g hg
        obtain ⟨low, -, rfl⟩ := List.mem_map.mp hf
        obtain ⟨before, d, after, -, hbegins, -⟩ := mem_unfoldFrom hg
        have hbehind : at_ + c.utf8Size ≤ g.begins := hbegins ▸ Nat.le_add_right _ _
        exact ⟨(Nat.le_add_right _ _).trans hbehind, fun _ => hbehind⟩

/-! ## Where a text occurs -/

/-- The span `b` lies behind the span `a`. -/
def Apart (a b : Span) : Prop := a.2 ≤ b.1

/-- What is not skipped of the lower-cased characters is searched: every span found is that of an
occurrence. -/
theorem mem_spansFrom {needle : List Char} {size skip : Nat} {hay : List Folded} {span : Span}
    (h : span ∈ spansFrom needle size skip hay) :
    ∃ before f rest, hay = before ++ f :: rest ∧ skip ≤ before.length ∧
      needle <+: (f :: rest).map Folded.char ∧ span = spanOf needle (f :: rest) size := by
  induction hay generalizing skip with
  | nil => simp [spansFrom] at h
  | cons f hay ih =>
      have hlater {skip : Nat} (h : span ∈ spansFrom needle size skip hay) :
          ∃ before g rest, f :: hay = before ++ g :: rest ∧ skip + 1 ≤ before.length ∧
            needle <+: (g :: rest).map Folded.char ∧ span = spanOf needle (g :: rest) size := by
        obtain ⟨before, g, rest, rfl, hskip, hprefix, rfl⟩ := ih h
        exact ⟨f :: before, g, rest, rfl, Nat.succ_le_succ hskip, hprefix, rfl⟩
      cases skip with
      | succ skip => exact hlater h
      | zero =>
          rw [spansFrom] at h
          split at h
          next hfound =>
            rcases List.mem_cons.mp h with rfl | hrest
            · exact ⟨[], f, hay, rfl, Nat.le_refl 0, List.isPrefixOf_iff_prefix.mp hfound, rfl⟩
            · obtain ⟨before, g, rest, hhay, -, hprefix, hspan⟩ := hlater hrest
              exact ⟨before, g, rest, hhay, Nat.zero_le _, hprefix, hspan⟩
          next =>
            obtain ⟨before, g, rest, hhay, -, hprefix, hspan⟩ := hlater h
            exact ⟨before, g, rest, hhay, Nat.zero_le _, hprefix, hspan⟩

/-- A span begins where the first character of the occurrence begins. It ends where that one ends,
or behind it, where the first character begins that is no part of the occurrence. -/
theorem spanOf_cases (needle : List Char) (f : Folded) (rest : List Folded) (size : Nat) :
    let next := (((f :: rest).drop needle.length).head?.map Folded.begins).getD size
    spanOf needle (f :: rest) size = (f.begins, next) ∧ f.begins < next ∨
      spanOf needle (f :: rest) size = (f.begins, f.ends) ∧ next ≤ f.begins := by
  intro next
  by_cases hle : next ≤ f.begins
  · exact Or.inr ⟨if_pos hle, hle⟩
  · exact Or.inl ⟨if_neg hle, Nat.lt_of_not_le hle⟩

theorem spanOf_begins (needle : List Char) (f : Folded) (rest : List Folded) (size : Nat) :
    (spanOf needle (f :: rest) size).1 = f.begins := by
  rcases spanOf_cases needle f rest size with ⟨hspan, -⟩ | ⟨hspan, -⟩ <;> rw [hspan]

section Line

variable {needle line : List Char}

/-- **Spans** end behind their beginning, and neither inside a character. -/
theorem findSpans_bounds {span : Span} (h : span ∈ findSpans needle line) :
    span.1 < span.2 ∧ IsBoundary line span.1 ∧ IsBoundary line span.2 := by
  have hbegin {f : Folded} (hf : f ∈ unfoldFrom 0 line) :
      f.begins < f.ends ∧ IsBoundary line f.begins ∧ IsBoundary line f.ends := by
    obtain ⟨before, c, after, rfl, hbegins, hends⟩ := mem_unfoldFrom hf
    rw [Nat.zero_add] at hbegins
    refine ⟨?_, ⟨before, List.prefix_append _ _, hbegins.symm⟩, before ++ [c], ?_, ?_⟩
    · rw [hends]
      exact Nat.lt_add_of_pos_right (Char.utf8Size_pos c)
    · exact ⟨after, List.append_cons before c after ▸ rfl⟩
    · rw [byteLength_append, hends, hbegins]
      rfl
  unfold findSpans at h
  split at h
  · cases h
  · obtain ⟨before, f, rest, hhay, -, -, rfl⟩ := mem_spansFrom h
    have hmem {g : Folded} (hg : g ∈ f :: rest) : g ∈ unfoldFrom 0 line :=
      hhay ▸ List.mem_append_right before hg
    obtain ⟨hlt, hbegins, hends⟩ := hbegin (hmem List.mem_cons_self)
    rcases spanOf_cases needle f rest (byteLength line) with ⟨hspan, hnext⟩ | ⟨hspan, -⟩
    · rw [hspan]
      refine ⟨hnext, hbegins, ?_⟩
      cases hhead : ((f :: rest).drop needle.length).head? with
      | none => exact isBoundary_byteLength line
      | some g => exact (hbegin (hmem (List.mem_of_mem_drop (List.mem_of_head? hhead)))).2.1
    · rw [hspan]
      exact ⟨hlt, hbegins, hends⟩

/-- An occurrence begins behind the span of one that ends before it. -/
theorem spanOf_apart {f g : Folded} {before rest : List Folded} (size : Nat)
    (hfollows : (f :: (before ++ g :: rest)).Pairwise Follows)
    (hskip : needle.length ≤ before.length + 1) (hneedle : needle ≠ [])
    (hfound : needle <+: (f :: (before ++ g :: rest)).map Folded.char)
    (hagain : needle <+: (g :: rest).map Folded.char) :
    (spanOf needle (f :: (before ++ g :: rest)) size).2 ≤ g.begins := by
  obtain ⟨c, more, rfl⟩ := List.exists_cons_of_ne_nil hneedle
  obtain ⟨hfirst, hrest⟩ := List.pairwise_cons.mp hfollows
  -- Both begin with the first character of the text, so they begin in different characters.
  have hsame : f.char = g.char :=
    (List.cons_prefix_cons.mp hfound).1.symm.trans (List.cons_prefix_cons.mp hagain).1
  have hlast : f.ends ≤ g.begins :=
    (hfirst g (List.mem_append_right _ List.mem_cons_self)).2 hsame
  have hnext : (((f :: (before ++ g :: rest)).drop (c :: more).length).head?.map
      Folded.begins).getD size ≤ g.begins := by
    rw [List.length_cons, List.drop_succ_cons,
      List.drop_append_of_le_length (Nat.le_of_succ_le_succ hskip)]
    cases hdrop : before.drop more.length with
    | nil => exact Nat.le_refl _
    | cons h others =>
        have hmem : h ∈ before := List.mem_of_mem_drop (hdrop ▸ List.mem_cons_self)
        exact ((List.pairwise_append.mp hrest).2.2 h hmem g List.mem_cons_self).1
  rcases spanOf_cases (c :: more) f (before ++ g :: rest) size with ⟨hspan, -⟩ | ⟨hspan, -⟩
  · rw [hspan]
    exact hnext
  · rw [hspan]
    exact hlast

theorem spansFrom_apart (hneedle : needle ≠ []) (size skip : Nat) {hay : List Folded}
    (h : hay.Pairwise Follows) : (spansFrom needle size skip hay).Pairwise Apart := by
  induction hay generalizing skip with
  | nil => simp [spansFrom]
  | cons f hay ih =>
      have hrest := (List.pairwise_cons.mp h).2
      cases skip with
      | succ skip => exact ih skip hrest
      | zero =>
          rw [spansFrom]
          split
          next hfound =>
            refine List.pairwise_cons.mpr ⟨fun span hspan => ?_, ih _ hrest⟩
            obtain ⟨before, g, rest, rfl, hskip, hagain, rfl⟩ := mem_spansFrom hspan
            have hapart := spanOf_apart size h (by omega) hneedle
              (List.isPrefixOf_iff_prefix.mp hfound) hagain
            rwa [← spanOf_begins needle g rest size] at hapart
          next => exact ih 0 hrest

/-- **Occurrences** lie one behind the other. -/
theorem findSpans_apart (needle line : List Char) : (findSpans needle line).Pairwise Apart := by
  unfold findSpans
  split
  next => exact .nil
  next hneedle =>
    exact spansFrom_apart (mt List.isEmpty_iff.mpr hneedle) _ 0 (unfoldFrom_follows 0 line)

end Line

end Dockboard.Text
