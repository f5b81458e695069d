import Mathlib.Data.List.Forall2
import Dockboard.Proofs.Text.Occurrences

set_option autoImplicit false

/-! # From the lower case back to the line

A search finds a text among the lower-cased characters of a line and answers with spans of the line
itself. A character and its lower case need not have as many bytes, and `İ` has a lower case of two
characters, in the middle of which an occurrence may end.

    Within line n before after    `before` is as much of the line as has `n` lower-cased characters
    StandsAt needle line n span   `span` is that of the occurrence at lower-cased character `n`
    searchBytes? needle line      the search as it is done on bytes

A span begins with the character in which the occurrence begins, and ends in front of the character
in which that begins which is behind the occurrence; where this is the same character, the span is
that character (`standsAt_spanOf`). A span is found for each occurrence (`findSpans_eq`). On bytes
the places in the line are looked up in a table with an entry for each byte of the lower case, and
none of its entries is inside a character (`searchBytes?_eq`).
-/

namespace Dockboard.Text

open Utf8

/-! ## Places of the lower-cased line -/

section Places

variable {line before after before' after' : List Char} {n m : Nat}

/-- `before` is the longest beginning of `line` with at most `n` lower-cased characters, and `after`
is the rest. -/
structure Within (line : List Char) (n : Nat) (before after : List Char) : Prop where
  parts : line = before ++ after
  fits : (fold before).length ≤ n
  longest : ∀ c ∈ after.head?, n < (fold (before ++ [c])).length

/-- More lower-cased characters are those of a longer beginning. -/
theorem Within.prefix_of_le (h : Within line n before after) (h' : Within line m before' after')
    (hle : n ≤ m) : before <+: before' := by
  have hfirst : before <+: line := ⟨after, h.parts.symm⟩
  have hlast : before' <+: line := ⟨after', h'.parts.symm⟩
  rcases List.prefix_or_prefix_of_prefix hfirst hlast with hprefix | ⟨more, rfl⟩
  · exact hprefix
  · cases more with
    | nil => rw [List.append_nil]
    | cons c more =>
        have hafter : after' = c :: (more ++ after) := by
          have hparts := h'.parts.symm.trans h.parts
          rwa [List.append_assoc, List.append_cancel_left_eq, List.cons_append] at hparts
        have hlongest := h'.longest c (by rw [hafter]; rfl)
        have hfits := h.fits
        rw [List.append_cons, fold_append, List.length_append] at hfits
        omega

/-- Only `İ` has a lower case of several characters. -/
theorem length_foldChar_le_one_iff (c : Char) : (foldChar c).length ≤ 1 ↔ c ≠ 'İ' := by
  unfold foldChar
  split
  next hascii =>
    refine iff_of_true (Nat.le_refl 1) ?_
    rintro rfl
    exact absurd hascii (by decide)
  next =>
    split
    next hdotted => exact iff_of_false (by decide) (not_not_intro hdotted)
    next hother => exact iff_of_true (Nat.le_refl 1) hother

/-- Where each character has a lower case of one character, none of it is left over. -/
theorem Within.length_fold (h : Within line n before after)
    (hsingle : ∀ c ∈ line, (foldChar c).length ≤ 1) (hle : n ≤ (fold line).length) :
    (fold before).length = n := by
  have hfits := h.fits
  cases after with
  | nil =>
      have hall : line = before := h.parts.trans (List.append_nil before)
      rw [hall] at hle
      omega
  | cons c after =>
      have hlongest := h.longest c rfl
      have hchar := hsingle c (h.parts ▸ List.mem_append_right before List.mem_cons_self)
      have hfold : fold [c] = foldChar c := List.append_nil _
      rw [fold_append, List.length_append, hfold] at hlongest
      omega

theorem within_first (c : Char) (line : List Char) (h : n < (foldChar c).length) :
    Within (c :: line) n [] (c :: line) := by
  refine ⟨rfl, Nat.zero_le n, fun d hd => ?_⟩
  obtain rfl := Option.some.inj hd
  rw [List.nil_append, fold_cons, List.length_append]
  omega

theorem Within.cons (c : Char) (h : Within line n before after) :
    Within (c :: line) ((foldChar c).length + n) (c :: before) after where
  parts := congrArg (c :: ·) h.parts
  fits := by
    rw [fold_cons, List.length_append]
    exact Nat.add_le_add_left h.fits _
  longest d hd := by
    rw [List.cons_append, fold_cons, List.length_append]
    exact Nat.add_lt_add_left (h.longest d hd) _

theorem unfoldFrom_getElem?_first (at_ : Nat) (c : Char) (line : List Char)
    (h : n < (foldChar c).length) :
    (unfoldFrom at_ (c :: line))[n]? = some ⟨(foldChar c)[n], at_, at_ + c.utf8Size⟩ := by
  rw [unfoldFrom, List.getElem?_append_left (by simpa using h), List.getElem?_map,
    List.getElem?_eq_getElem h, Option.map_some]

theorem unfoldFrom_getElem?_later (at_ n : Nat) (c : Char) (line : List Char) :
    (unfoldFrom at_ (c :: line))[(foldChar c).length + n]? =
      (unfoldFrom (at_ + c.utf8Size) line)[n]? := by
  rw [unfoldFrom, List.getElem?_append_right (by simp), List.length_map, Nat.add_sub_cancel_left]

/-- Where the lower-cased character number `n` comes from, the line ending at `size`. -/
def beginsAt (hay : List Folded) (size n : Nat) : Nat := (hay[n]?.map Folded.begins).getD size

/-- **Origins.** A lower-cased character comes from the first character of which not all is before
it. -/
theorem exists_within (at_ : Nat) {line : List Char} {n : Nat} (h : n ≤ (fold line).length) :
    ∃ before after, Within line n before after ∧
      beginsAt (unfoldFrom at_ line) (at_ + byteLength line) n = at_ + byteLength before ∧
      ∀ f, (unfoldFrom at_ line)[n]? = some f →
        ∃ c rest, after = c :: rest ∧ f.ends = f.begins + c.utf8Size := by
  induction line generalizing at_ n with
  | nil =>
      obtain rfl := Nat.le_zero.mp h
      exact ⟨[], [], ⟨rfl, Nat.le_refl 0, nofun⟩, rfl, nofun⟩
  | cons c line ih =>
      by_cases hfirst : n < (foldChar c).length
      · have hget := unfoldFrom_getElem?_first at_ c line hfirst
        refine ⟨[], c :: line, within_first c line hfirst, ?_, fun f hf => ?_⟩
        · rw [beginsAt, hget]
          rfl
        · obtain rfl := Option.some.inj (hget.symm.trans hf)
          exact ⟨c, line, rfl, rfl⟩
      · obtain ⟨m, rfl⟩ := Nat.exists_eq_add_of_le (Nat.le_of_not_lt hfirst)
        rw [fold_cons, List.length_append] at h
        obtain ⟨before, after, hwithin, hbegins, hends⟩ :=
          ih (at_ + c.utf8Size) (Nat.le_of_add_le_add_left h)
        have hget := unfoldFrom_getElem?_later at_ m c line
        refine ⟨c :: before, after, hwithin.cons c, ?_, ?_⟩
        · rw [beginsAt, hget, byteLength, byteLength, ← Nat.add_assoc, ← Nat.add_assoc]
          exact hbegins
        · rw [hget]
          exact hends

end Places

/-! ## Spans of occurrences -/

section Spans

variable {needle line : List Char}

/-- `span` is the span in `line` of the occurrence of `needle` that begins with the lower-cased
character number `n`. It ends where the character begins in which the occurrence ends, or behind
this character if it is the one in which the occurrence begins. -/
def StandsAt (needle line : List Char) (n : Nat) (span : Span) : Prop :=
  ∃ before c inside after, Within line n before (c :: inside ++ after) ∧
    span = (byteLength before, byteLength before + byteLength (c :: inside)) ∧
    (Within line (n + needle.length) (before ++ c :: inside) after ∨
      inside = [] ∧ Within line (n + needle.length) before (c :: after))

theorem spanOf_drop (needle : List Char) (hay : List Folded) (size n : Nat) {f : Folded}
    (hf : hay[n]? = some f) :
    spanOf needle (hay.drop n) size =
      if beginsAt hay size (n + needle.length) ≤ beginsAt hay size n then
        (beginsAt hay size n, f.ends)
      else (beginsAt hay size n, beginsAt hay size (n + needle.length)) := by
  simp only [spanOf, beginsAt, List.head?_drop, List.getElem?_drop, hf]
  rfl

theorem length_unfoldFrom (at_ : Nat) (s : List Char) :
    (unfoldFrom at_ s).length = (fold s).length := by
  rw [← unfoldFrom_char at_ s, List.length_map]

/-- **The span** of an occurrence is where it stands. -/
theorem standsAt_spanOf (hneedle : needle ≠ []) {n : Nat} (h : needle <+: (fold line).drop n) :
    StandsAt needle line n (spanOf needle ((unfoldFrom 0 line).drop n) (byteLength line)) := by
  have hpos := List.length_pos_of_ne_nil hneedle
  have hlength := h.length_le
  rw [List.length_drop] at hlength
  have hlt : n < (unfoldFrom 0 line).length := by
    rw [length_unfoldFrom]
    omega
  have hle : n ≤ (fold line).length := by omega
  have hle' : n + needle.length ≤ (fold line).length := by omega
  obtain ⟨before, rest, hfirst, hbegins, hends⟩ := exists_within 0 hle
  obtain ⟨before', after, hlast, hnext, -⟩ := exists_within 0 hle'
  rw [Nat.zero_add, Nat.zero_add] at hbegins hnext
  have hget := List.getElem?_eq_getElem hlt
  obtain ⟨c, rest, rfl, hend⟩ := hends _ hget
  have hat : (unfoldFrom 0 line)[n].begins = byteLength before := by
    rw [← hbegins, beginsAt, hget]
    rfl
  rw [spanOf_drop needle _ _ n hget, hbegins, hnext, hend, hat]
  obtain ⟨more, rfl⟩ := hfirst.prefix_of_le hlast (Nat.le_add_right n needle.length)
  have hparts : c :: rest = more ++ after := by
    have hsame := hfirst.parts.symm.trans hlast.parts
    rwa [List.append_assoc, List.append_cancel_left_eq] at hsame
  cases more with
  | nil =>
      -- The occurrence ends in the character in which it begins.
      obtain rfl : c :: rest = after := hparts
      rw [List.append_nil] at hlast
      refine ⟨before, c, [], rest, hfirst, ?_, Or.inr ⟨rfl, hlast⟩⟩
      rw [List.append_nil, if_pos (Nat.le_refl _)]
      rfl
  | cons d inside =>
      obtain ⟨rfl, rfl⟩ := List.cons.inj hparts
      have hbehind : ¬ byteLength (before ++ c :: inside) ≤ byteLength before := by
        have hsize := Char.utf8Size_pos c
        rw [byteLength_append, byteLength]
        omega
      refine ⟨before, c, inside, after, hfirst, ?_, Or.inl hlast⟩
      rw [if_neg hbehind, byteLength_append]

/-- A line is searched as its lower-cased characters are. -/
theorem spansFrom_eq (needle : List Char) (size skip : Nat) (hay : List Folded) :
    spansFrom needle size skip hay =
      (occurrencesFrom needle skip (hay.map Folded.char)).map fun n =>
        spanOf needle (hay.drop n) size := by
  induction hay generalizing skip with
  | nil => simp [spansFrom, occurrencesFrom]
  | cons f hay ih =>
      have hrest (skip : Nat) : spansFrom needle size skip hay =
          ((occurrencesFrom needle skip (hay.map Folded.char)).map (· + 1)).map fun n =>
            spanOf needle ((f :: hay).drop n) size := by
        rw [ih, List.map_map]
        rfl
      cases skip with
      | succ skip => exact hrest skip
      | zero =>
          rw [spansFrom, List.map_cons, occurrencesFrom, hrest, hrest]
          split
          · rfl
          · rfl

theorem findSpans_eq (hneedle : needle ≠ []) (line : List Char) :
    findSpans needle line = (occurrences needle (fold line)).map fun n =>
      spanOf needle ((unfoldFrom 0 line).drop n) (byteLength line) := by
  rw [findSpans, if_neg (mt List.isEmpty_iff.mp hneedle), spansFrom_eq, unfoldFrom_char]
  rfl

/-- **What stands at a span** has the lower case that was looked for, if no character of the line
has a lower case of several characters. -/
theorem StandsAt.exists_slice {n : Nat} {span : Span} (hstands : StandsAt needle line n span)
    (hneedle : needle ≠ []) (h : needle <+: (fold line).drop n)
    (hsingle : ∀ c ∈ line, (foldChar c).length ≤ 1) :
    ∃ text, IsSlice line span text ∧ fold text = needle := by
  obtain ⟨before, c, inside, after, hfirst, rfl, hlast⟩ := hstands
  have hpos := List.length_pos_of_ne_nil hneedle
  have hlength := h.length_le
  rw [List.length_drop] at hlength
  have hbefore : (fold before).length = n := hfirst.length_fold hsingle (by omega)
  rcases hlast with hlast | ⟨-, hlast⟩
  · have hthrough : (fold (before ++ c :: inside)).length = n + needle.length :=
      hlast.length_fold hsingle (by omega)
    rw [fold_append, List.length_append, hbefore] at hthrough
    refine ⟨c :: inside, ⟨before, after, hlast.parts, rfl, rfl⟩, ?_⟩
    have hdrop : (fold line).drop n = fold (c :: inside) ++ fold after := by
      rw [hlast.parts, fold_append, fold_append, List.append_assoc, List.drop_left' hbefore]
    rw [hdrop] at h
    have hfound : needle <+: fold (c :: inside) :=
      List.prefix_of_prefix_length_le h (List.prefix_append _ _) (by omega)
    exact (hfound.eq_of_length (by omega)).symm
  · have hsame := hlast.length_fold hsingle (by omega)
    omega

end Spans

/-! ## On bytes -/

section Bytes

/-- For each byte of the lower-cased line, and for its end, where the character begins that it comes
from, the line beginning at `at_`. -/
def originsFrom (at_ : Nat) : List Char → List Nat
  | [] => [at_]
  | c :: rest =>
      (foldChar c).flatMap (fun low => List.replicate low.utf8Size at_) ++
        originsFrom (at_ + c.utf8Size) rest

/-- Where the character ends that begins at a place in some bytes. There is no answer inside a
character. -/
def charEnd? (bytes : List UInt8) (n : Nat) : Option Nat :=
  if atBoundary bytes n then
    match bytes.drop n with
    | [] => some bytes.length
    | lead :: _ => some (n + width lead)
  else none

/-- The span in the line of the occurrence of `size` bytes that begins at a byte of the lower-cased
line. There is no answer where the table has no entry or the line no character. -/
def rangeAt? (bytes : List UInt8) (origins : List Nat) (size start : Nat) : Option Span :=
  origins[start]?.bind fun begins => origins[start + size]?.bind fun ends =>
    if ends ≤ begins then (charEnd? bytes begins).map fun ends => (begins, ends)
    else some (begins, ends)

/-- Where `needle`, a lower-cased text, occurs in `line`, found in their bytes. -/
def searchBytes? (needle line : List Char) : Option (List Span) :=
  if needle.isEmpty then some []
  else
    (occurrences (encode needle) (encode (fold line))).mapM
      (rangeAt? (encode line) (originsFrom 0 line) (encode needle).length)

variable {needle line : List Char}

theorem originsFrom_eq (at_ : Nat) (line : List Char) :
    originsFrom at_ line = (unfoldFrom at_ line).flatMap
      (fun f => List.replicate f.char.utf8Size f.begins) ++ [at_ + byteLength line] := by
  induction line generalizing at_ with
  | nil => rfl
  | cons c line ih =>
      rw [originsFrom, ih, unfoldFrom, List.flatMap_append, List.flatMap_map, byteLength,
        ← Nat.add_assoc, List.append_assoc]

theorem origins_getElem? (size : Nat) {hay : List Folded} {n : Nat} (h : n ≤ hay.length) :
    (hay.flatMap (fun f => List.replicate f.char.utf8Size f.begins) ++ [size])[byteOffset
      (hay.map Folded.char) n]? = some (beginsAt hay size n) := by
  induction hay generalizing n with
  | nil =>
      obtain rfl := Nat.le_zero.mp h
      rfl
  | cons f hay ih =>
      rw [List.flatMap_cons, List.append_assoc]
      cases n with
      | zero =>
          have hpos : 0 < (List.replicate f.char.utf8Size f.begins).length := by
            rw [List.length_replicate]
            exact Char.utf8Size_pos f.char
          show (_ ++ _)[0]? = _
          rw [List.getElem?_append_left hpos, List.getElem?_eq_getElem hpos,
            List.getElem_replicate]
          rfl
      | succ n =>
          have hoffset : byteOffset ((f :: hay).map Folded.char) (n + 1) =
              f.char.utf8Size + byteOffset (hay.map Folded.char) n := rfl
          rw [hoffset, List.getElem?_append_right (by simp), List.length_replicate,
            Nat.add_sub_cancel_left, ih (Nat.le_of_succ_le_succ h)]
          rfl

/-- **The table** has the origin of each character of the lower-cased line. -/
theorem originsFrom_getElem? {n : Nat} (h : n ≤ (fold line).length) :
    (originsFrom 0 line)[byteOffset (fold line) n]? =
      some (beginsAt (unfoldFrom 0 line) (byteLength line) n) := by
  rw [originsFrom_eq, Nat.zero_add, ← unfoldFrom_char 0 line]
  rw [← length_unfoldFrom 0 line] at h
  exact origins_getElem? _ h

theorem charEnd?_encode (before after : List Char) (c : Char) :
    charEnd? (encode (before ++ c :: after)) (byteLength before) =
      some (byteLength before + c.utf8Size) := by
  obtain ⟨lead, more, hc, hwidth, -⟩ := exists_encoding c
  rw [charEnd?, if_pos (atBoundary_encode before _), encode_append,
    List.drop_left' (length_encode before), encode_cons, hc, List.cons_append]
  simp only [hwidth]

theorem rangeAt?_eq (hneedle : needle ≠ []) {n : Nat} (h : needle <+: (fold line).drop n) :
    rangeAt? (encode line) (originsFrom 0 line) (encode needle).length (byteOffset (fold line) n) =
      some (spanOf needle ((unfoldFrom 0 line).drop n) (byteLength line)) := by
  have hpos := List.length_pos_of_ne_nil hneedle
  have hlength := h.length_le
  rw [List.length_drop] at hlength
  have hlt : n < (unfoldFrom 0 line).length := by
    rw [length_unfoldFrom]
    omega
  have hget := List.getElem?_eq_getElem hlt
  obtain ⟨before, c, after, hline, hbegins, hends⟩ := mem_unfoldFrom (List.getElem_mem hlt)
  have hchar : charEnd? (encode line) (unfoldFrom 0 line)[n].begins =
      some (unfoldFrom 0 line)[n].ends := by
    rw [hends, hbegins, Nat.zero_add, hline, charEnd?_encode]
  have hat : beginsAt (unfoldFrom 0 line) (byteLength line) n =
      (unfoldFrom 0 line)[n].begins := by
    rw [beginsAt, hget]
    rfl
  rw [rangeAt?, length_encode, ← byteOffset_add h, originsFrom_getElem? (by omega),
    originsFrom_getElem? (by omega), Option.bind_some, Option.bind_some,
    spanOf_drop needle _ _ n hget, hat, hchar]
  split
  · rfl
  · rfl

theorem mapM_map_eq_some {α β γ : Type} {f : β → Option γ} {g : α → β} {r : α → γ} {l : List α}
    (h : ∀ a ∈ l, f (g a) = some (r a)) : (l.map g).mapM f = some (l.map r) := by
  induction l with
  | nil => rfl
  | cons a l ih =>
      rw [List.map_cons, List.mapM_cons, h a List.mem_cons_self,
        ih fun b hb => h b (List.mem_cons_of_mem _ hb)]
      rfl

/-- **On bytes** the same spans are found, and no place that is looked up is inside a character. -/
theorem searchBytes?_eq (needle line : List Char) :
    searchBytes? needle line = some (findSpans needle line) := by
  by_cases hempty : needle.isEmpty
  · rw [searchBytes?, findSpans, if_pos hempty, if_pos hempty]
  · have hneedle : needle ≠ [] := mt List.isEmpty_iff.mpr hempty
    rw [searchBytes?, if_neg hempty, occurrences_encode hneedle, findSpans_eq hneedle]
    exact mapM_map_eq_some fun n hn =>
      rangeAt?_eq hneedle ((leftToRight_occurrences hneedle _).occurs n hn).2

end Bytes

/-! ## What a search answers -/

theorem IsBoundary.le {s : List Char} {n : Nat} (h : IsBoundary s n) : n ≤ byteLength s := by
  obtain ⟨before, ⟨after, rfl⟩, rfl⟩ := h
  rw [byteLength_append]
  exact Nat.le_add_right _ _

/-- **Searches.** The spans found are those of the occurrences in the lower-cased line from left to
right, one for each, and the same as are found on bytes. None is empty, all lie in the line, and
they begin and end between its characters, one behind the other. If no character of the line has a
lower case of several characters, what stands at a span has the lower case that was looked for. -/
theorem findSpans_leftToRight {needle : List Char} (hneedle : needle ≠ []) (line : List Char) :
    searchBytes? needle line = some (findSpans needle line) ∧
      (∃ places, LeftToRight needle (fold line) 0 places ∧
        List.Forall₂ (StandsAt needle line) places (findSpans needle line)) ∧
      (∀ span ∈ findSpans needle line, span.1 < span.2 ∧ span.2 ≤ byteLength line ∧
        IsBoundary line span.1 ∧ IsBoundary line span.2) ∧
      (findSpans needle line).Pairwise Apart ∧
      ((∀ c ∈ line, (foldChar c).length ≤ 1) →
        ∀ span ∈ findSpans needle line, ∃ text, IsSlice line span text ∧ fold text = needle) := by
  have hplaces := leftToRight_occurrences hneedle (fold line)
  refine ⟨searchBytes?_eq needle line, ⟨_, hplaces, ?_⟩, fun span hspan => ?_,
    findSpans_apart needle line, fun hsingle span hspan => ?_⟩
  · rw [findSpans_eq hneedle, List.forall₂_map_right_iff, List.forall₂_same]
    exact fun n hn => standsAt_spanOf hneedle (hplaces.occurs n hn).2
  · obtain ⟨hlt, hbegins, hends⟩ := findSpans_bounds hspan
    exact ⟨hlt, hends.le, hbegins, hends⟩
  · rw [findSpans_eq hneedle] at hspan
    obtain ⟨n, hn, rfl⟩ := List.mem_map.mp hspan
    have hoccurs := (hplaces.occurs n hn).2
    exact (standsAt_spanOf hneedle hoccurs).exists_slice hneedle hoccurs hsingle

theorem findSpans_leftToRight_of_two :
    findSpans ['ü', 'b'] "ÜB üb".toList = [(0, 3), (4, 7)] ∧
      searchBytes? ['ü', 'b'] "ÜB üb".toList = some [(0, 3), (4, 7)] ∧
      ∀ span ∈ [(0, 3), (4, 7)], ∃ text, IsSlice "ÜB üb".toList span text ∧
        fold text = ['ü', 'b'] := by
  have hspans : findSpans ['ü', 'b'] "ÜB üb".toList = [(0, 3), (4, 7)] := by decide +kernel
  have hundotted : 'İ' ∉ "ÜB üb".toList := by decide
  obtain ⟨hbytes, -, -, -, htexts⟩ :=
    findSpans_leftToRight (List.cons_ne_nil 'ü' ['b']) "ÜB üb".toList
  refine ⟨hspans, hspans ▸ hbytes, hspans ▸ htexts fun c hc => ?_⟩
  exact (length_foldChar_le_one_iff c).mpr (ne_of_mem_of_not_mem hc hundotted)

/-- The first occurrence ends in the lower case of `İ`, which is no part of the span. -/
example : findSpans ['ü', 'i'] "ÜİüI".toList = [(0, 2), (4, 7)] := by decide +kernel

end Dockboard.Text
