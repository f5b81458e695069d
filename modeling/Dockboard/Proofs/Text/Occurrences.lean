import Dockboard.Proofs.Text.Spans
import Dockboard.Proofs.Text.Bytes

set_option autoImplicit false

/-! # Occurrences from left to right

A list can occur in another one at places so close together that the occurrences overlap. Who reads
from left to right takes the first, and then always the next one that does not overlap it.

    LeftToRight needle text skip places   these are the places so found from `skip` on
    occurrences needle text               the places found

What is found is an occurrence, none overlaps the one before it, and what was passed over overlaps
one that was found. There is one list of places only of which this holds (`LeftToRight.unique`). So
a text found in the bytes of a text is found at the same characters as in its characters
(`occurrences_encode`).
-/

namespace Dockboard.Text

section Lists

variable {α : Type} {needle text : List α} {skip : Nat} {places : List Nat}

/-- The places from `skip` on where `needle` is found in `text` by one who reads from left to
right. -/
structure LeftToRight (needle text : List α) (skip : Nat) (places : List Nat) : Prop where
  occurs : ∀ p ∈ places, skip ≤ p ∧ needle <+: text.drop p
  apart : places.Pairwise fun p q => p + needle.length ≤ q
  complete : ∀ q, skip ≤ q → needle <+: text.drop q →
    ∃ p ∈ places, p ≤ q ∧ q < p + needle.length

namespace LeftToRight

/-- An occurrence is taken, and those that do not overlap it are behind it. -/
theorem cons (hneedle : needle ≠ []) (hfound : needle <+: text.drop skip)
    (h : LeftToRight needle text (skip + needle.length) places) :
    LeftToRight needle text skip (skip :: places) where
  occurs p hp := by
    rcases List.mem_cons.mp hp with rfl | hlater
    · exact ⟨Nat.le_refl _, hfound⟩
    · obtain ⟨hle, hp⟩ := h.occurs p hlater
      exact ⟨by omega, hp⟩
  apart := List.pairwise_cons.mpr ⟨fun q hq => (h.occurs q hq).1, h.apart⟩
  complete q hle hq := by
    have hpos := List.length_pos_of_ne_nil hneedle
    by_cases hbehind : skip + needle.length ≤ q
    · obtain ⟨p, hp, hcovers⟩ := h.complete q hbehind hq
      exact ⟨p, List.mem_cons_of_mem _ hp, hcovers⟩
    · exact ⟨skip, List.mem_cons_self, hle, by omega⟩

/-- A place without an occurrence is passed. -/
theorem pass (hnone : ¬ needle <+: text.drop skip)
    (h : LeftToRight needle text (skip + 1) places) : LeftToRight needle text skip places where
  occurs p hp := ⟨Nat.le_of_succ_le (h.occurs p hp).1, (h.occurs p hp).2⟩
  apart := h.apart
  complete q hle hq := by
    refine h.complete q (Nat.lt_of_le_of_ne hle fun hsame => hnone ?_) hq
    exact hsame ▸ hq

theorem shift (c : α) (h : LeftToRight needle text skip places) :
    LeftToRight needle (c :: text) (skip + 1) (places.map (· + 1)) where
  occurs p hp := by
    obtain ⟨q, hq, rfl⟩ := List.mem_map.mp hp
    exact ⟨Nat.succ_le_succ (h.occurs q hq).1, (h.occurs q hq).2⟩
  apart := by
    refine List.pairwise_map.mpr (h.apart.imp fun hpq => ?_)
    omega
  complete q hle hq := by
    obtain ⟨r, rfl⟩ := Nat.exists_eq_add_one_of_ne_zero (n := q) (by omega)
    obtain ⟨p, hp, hbefore, hcovers⟩ := h.complete r (Nat.le_of_succ_le_succ hle) hq
    exact ⟨p + 1, List.mem_map_of_mem hp, by omega, by omega⟩

/-- What is left when the first occurrence is taken away. -/
theorem tail {p : Nat} (h : LeftToRight needle text skip (p :: places)) :
    LeftToRight needle text (p + needle.length) places where
  occurs q hq := ⟨(List.pairwise_cons.mp h.apart).1 q hq,
    (h.occurs q (List.mem_cons_of_mem _ hq)).2⟩
  apart := (List.pairwise_cons.mp h.apart).2
  complete q hle hq := by
    have hskip := (h.occurs p List.mem_cons_self).1
    obtain ⟨r, hr, hbefore, hcovers⟩ := h.complete q (by omega) hq
    rcases List.mem_cons.mp hr with rfl | hr
    · omega
    · exact ⟨r, hr, hbefore, hcovers⟩

/-- No place found is before the first one. -/
theorem head_le {p q : Nat} (h : LeftToRight needle text skip (p :: places)) (hle : skip ≤ q)
    (hq : needle <+: text.drop q) : p ≤ q := by
  obtain ⟨r, hr, hbefore, -⟩ := h.complete q hle hq
  rcases List.mem_cons.mp hr with rfl | hr
  · exact hbefore
  · have hapart := (List.pairwise_cons.mp h.apart).1 r hr
    omega

/-- **Uniqueness.** Reading from left to right finds occurrences in one way. -/
theorem unique {others : List Nat} (h : LeftToRight needle text skip places)
    (h' : LeftToRight needle text skip others) : places = others := by
  induction places generalizing skip others with
  | nil =>
      cases others with
      | nil => rfl
      | cons q others =>
          obtain ⟨hle, hq⟩ := h'.occurs q List.mem_cons_self
          obtain ⟨p, hp, -⟩ := h.complete q hle hq
          cases hp
  | cons p places ih =>
      obtain ⟨hle, hp⟩ := h.occurs p List.mem_cons_self
      cases others with
      | nil =>
          obtain ⟨q, hq, -⟩ := h'.complete p hle hp
          cases hq
      | cons q others =>
          obtain ⟨hle', hq⟩ := h'.occurs q List.mem_cons_self
          obtain rfl := Nat.le_antisymm (h.head_le hle' hq) (h'.head_le hle hp)
          rw [ih h.tail h'.tail]

end LeftToRight

variable [DecidableEq α]

/-- Where `needle` is found in a text, the first `skip` places of which are passed. -/
def occurrencesFrom (needle : List α) : Nat → List α → List Nat
  | _, [] => []
  | skip + 1, _ :: text => (occurrencesFrom needle skip text).map (· + 1)
  | 0, c :: text =>
      if needle.isPrefixOf (c :: text) then
        0 :: (occurrencesFrom needle (needle.length - 1) text).map (· + 1)
      else (occurrencesFrom needle 0 text).map (· + 1)

/-- Where `needle` is found in `text`. -/
def occurrences (needle text : List α) : List Nat := occurrencesFrom needle 0 text

theorem leftToRight_occurrencesFrom (hneedle : needle ≠ []) (skip : Nat) (text : List α) :
    LeftToRight needle text skip (occurrencesFrom needle skip text) := by
  induction text generalizing skip with
  | nil =>
      refine ⟨nofun, .nil, fun q _ hq => absurd ?_ hneedle⟩
      rwa [List.drop_nil, List.prefix_nil] at hq
  | cons c text ih =>
      cases skip with
      | succ skip => exact (ih skip).shift c
      | zero =>
          have hpos := List.length_pos_of_ne_nil hneedle
          rw [occurrencesFrom]
          split
          next hfound =>
            refine .cons hneedle (List.isPrefixOf_iff_prefix.mp hfound) ?_
            have hsize : needle.length - 1 + 1 = 0 + needle.length := by omega
            exact hsize ▸ (ih (needle.length - 1)).shift c
          next hnone => exact .pass (mt List.isPrefixOf_iff_prefix.mpr hnone) ((ih 0).shift c)

theorem leftToRight_occurrences (hneedle : needle ≠ []) (text : List α) :
    LeftToRight needle text 0 (occurrences needle text) :=
  leftToRight_occurrencesFrom hneedle 0 text

end Lists

/-! ## In bytes -/

open Utf8

variable {needle text : List Char}

/-- Where character number `n` of a text begins, counted in bytes. -/
def byteOffset (text : List Char) (n : Nat) : Nat := byteLength (text.take n)

theorem byteOffset_le {p q : Nat} (h : p ≤ q) : byteOffset text p ≤ byteOffset text q := by
  obtain ⟨rest, hrest⟩ := List.take_prefix_take_left (l := text) h
  rw [byteOffset, byteOffset, ← hrest, byteLength_append]
  exact Nat.le_add_right _ _

theorem byteOffset_lt {p q : Nat} (h : p < q) (hq : q ≤ text.length) :
    byteOffset text p < byteOffset text q := by
  have hlt : p < text.length := by omega
  have hnext : byteOffset text (p + 1) = byteOffset text p + text[p].utf8Size := by
    rw [byteOffset, List.take_succ_eq_append_getElem hlt, byteLength_append]
    rfl
  have hle : byteOffset text (p + 1) ≤ byteOffset text q := byteOffset_le h
  have hpos := Char.utf8Size_pos text[p]
  omega

/-- What occurs at a character ends as many bytes behind it as it has. -/
theorem byteOffset_add {p : Nat} (h : needle <+: text.drop p) :
    byteOffset text (p + needle.length) = byteOffset text p + byteLength needle := by
  rw [byteOffset, List.take_add, byteLength_append, ← List.prefix_iff_eq_take.mp h]
  rfl

theorem encode_take_drop (text : List Char) (n : Nat) :
    encode text = encode (text.take n) ++ encode (text.drop n) := by
  rw [← encode_append, List.take_append_drop]

/-- A byte of a text is at the beginning of a character, or no character begins with it. -/
theorem byteOffset_or_inner {n : Nat} (h : n < byteLength text) :
    (∃ p, n = byteOffset text p) ∨ ∃ b, (encode text)[n]? = some b ∧ width b = 0 := by
  induction text generalizing n with
  | nil => cases h
  | cons c text ih =>
      obtain ⟨lead, more, hc, -, hlength, hmore⟩ := exists_encoding c
      have hsize := length_encoding_eq c
      by_cases hlater : c.utf8Size ≤ n
      · have hrest : n - c.utf8Size < byteLength text := by
          rw [byteLength] at h
          omega
        rw [encode_cons, List.getElem?_append_right (hsize ▸ hlater), hsize]
        rcases ih hrest with ⟨p, hp⟩ | hinner
        · refine Or.inl ⟨p + 1, ?_⟩
          rw [byteOffset, List.take_succ_cons, byteLength, ← byteOffset]
          omega
        · exact Or.inr hinner
      · cases n with
        | zero => exact Or.inl ⟨0, rfl⟩
        | succ n =>
            have hlt : n < more.length := by omega
            refine Or.inr ⟨more[n], ?_, hmore _ (List.getElem_mem hlt)⟩
            rw [encode_cons, hc, List.cons_append, List.getElem?_cons_succ,
              List.getElem?_append_left hlt, List.getElem?_eq_getElem hlt]

/-- **Bytes.** The bytes of one text occur in those of another where the text occurs. -/
theorem encode_prefix_drop_iff (hneedle : needle ≠ []) {n : Nat} :
    encode needle <+: (encode text).drop n ↔
      ∃ p, n = byteOffset text p ∧ needle <+: text.drop p := by
  constructor
  · intro h
    obtain ⟨c, more, rfl⟩ := List.exists_cons_of_ne_nil hneedle
    obtain ⟨lead, inner, hc, hwidth, -⟩ := exists_encoding c
    have hlead : (encode text)[n]? = some lead := by
      obtain ⟨rest, hrest⟩ := h
      have hhead := congrArg List.head? hrest
      rw [encode_cons, hc, List.head?_drop] at hhead
      exact hhead.symm
    have hlt : n < byteLength text := by
      rw [← length_encode]
      exact (List.getElem?_eq_some_iff.mp hlead).1
    rcases byteOffset_or_inner hlt with ⟨p, rfl⟩ | ⟨b, hb, hzero⟩
    · refine ⟨p, rfl, ?_⟩
      rwa [encode_take_drop text p, byteOffset, List.drop_left' (length_encode _),
        encode_prefix_iff] at h
    · -- No text begins inside a character.
      have hpos := Char.utf8Size_pos c
      obtain rfl := Option.some.inj (hb.symm.trans hlead)
      omega
  · rintro ⟨p, rfl, h⟩
    rw [encode_take_drop text p, byteOffset, List.drop_left' (length_encode _), encode_prefix_iff]
    exact h

/-- What is found in the characters of a text is found in its bytes. -/
theorem LeftToRight.encode {places : List Nat} (hneedle : needle ≠ [])
    (h : LeftToRight needle text 0 places) :
    LeftToRight (encode needle) (encode text) 0 (places.map (byteOffset text)) where
  occurs n hn := by
    obtain ⟨p, hp, rfl⟩ := List.mem_map.mp hn
    exact ⟨Nat.zero_le _, (encode_prefix_drop_iff hneedle).mpr ⟨p, rfl, (h.occurs p hp).2⟩⟩
  apart := by
    refine List.pairwise_map.mpr (h.apart.imp_of_mem fun hp _ hle => ?_)
    rw [length_encode, ← byteOffset_add (h.occurs _ hp).2]
    exact byteOffset_le hle
  complete n _ hn := by
    obtain ⟨q, rfl, hq⟩ := (encode_prefix_drop_iff hneedle).mp hn
    obtain ⟨p, hp, hle, hlt⟩ := h.complete q (Nat.zero_le _) hq
    refine ⟨byteOffset text p, List.mem_map_of_mem hp, byteOffset_le hle, ?_⟩
    have hp := (h.occurs p hp).2
    have hlength := hp.length_le
    rw [List.length_drop] at hlength
    rw [length_encode, ← byteOffset_add hp]
    exact byteOffset_lt hlt (by omega)

/-- **Occurrences** are found in the bytes of a text at the characters where they are found in the
text. -/
theorem occurrences_encode (hneedle : needle ≠ []) (text : List Char) :
    occurrences (Utf8.encode needle) (Utf8.encode text) =
      (occurrences needle text).map (byteOffset text) := by
  have hbytes : Utf8.encode needle ≠ [] := fun hnil => hneedle <| byteLength_eq_zero <| by
    rw [← length_encode, hnil, List.length_nil]
  exact (leftToRight_occurrences hbytes _).unique
    ((leftToRight_occurrences hneedle text).encode hneedle)

end Dockboard.Text
