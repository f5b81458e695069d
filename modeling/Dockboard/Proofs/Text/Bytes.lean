import Dockboard.Proofs.Text.Characters
import Dockboard.Text.Search

set_option autoImplicit false

/-! # Places in the bytes of a text

A text is kept in UTF-8, where a place in it is counted in bytes and must not be inside a character.
Whether it is can be told from the byte that stands there.

    encode s               the bytes of a text
    atBoundary bytes n     a place is the beginning of a character, or the end of the text
    byteAt bytes n         the place of character number `n`
    charCount bytes        how many characters there are

What stands before a place of a text has as many bytes as `byteLength` says. It is a boundary
(`atBoundary_encode`), and the place of the character whose number is that of the characters before
it (`byteAt_encode`).
-/

namespace Dockboard.Text.Utf8

theorem toList_loop (bytes : ByteArray) (n : Nat) (done : List UInt8) :
    ByteArray.toList.loop bytes n done = done.reverse ++ bytes.data.toList.drop n := by
  induction n, done using ByteArray.toList.loop.induct bytes with
  | case1 n done hlt ih =>
      have hsize : n < bytes.data.toList.length := hlt
      have hget : bytes.get! n = bytes.data.toList[n] := getElem!_pos bytes.data n hlt
      rw [ByteArray.toList.loop, if_pos hlt, ih, List.drop_eq_getElem_cons hsize, hget]
      simp
  | case2 n done hge =>
      have hsize : bytes.data.toList.length ≤ n := Nat.le_of_not_lt hge
      rw [ByteArray.toList.loop, if_neg hge, List.drop_of_length_le hsize, List.append_nil]

/-- The bytes of a text are those of its characters. -/
theorem encode_eq (s : List Char) : encode s = s.flatMap encoding := by
  show ByteArray.toList.loop (String.ofList s).toByteArray 0 [] = s.flatMap encoding
  rw [toList_loop, String.toByteArray_ofList, List.utf8Encode, List.data_toByteArray]
  rfl

@[simp] theorem lossy_encode (s : List Char) : lossy (encode s) = s := by
  rw [encode_eq, lossy_text]

@[simp] theorem encode_nil : encode [] = [] := encode_eq []

theorem encode_cons (c : Char) (s : List Char) : encode (c :: s) = encoding c ++ encode s := by
  rw [encode_eq, encode_eq, List.flatMap_cons]

theorem encode_append (s t : List Char) : encode (s ++ t) = encode s ++ encode t := by
  rw [encode_eq, encode_eq, encode_eq, List.flatMap_append]

theorem length_encoding_eq (c : Char) : (encoding c).length = c.utf8Size :=
  String.length_utf8EncodeChar c

theorem length_encode (s : List Char) : (encode s).length = byteLength s := by
  induction s with
  | nil => rw [encode_nil, byteLength, List.length_nil]
  | cons c s ih => rw [encode_cons, List.length_append, length_encoding_eq, ih, byteLength]

/-- A character begins with a byte that tells how many it has, and its other bytes tell nothing. -/
theorem exists_encoding (c : Char) : ∃ lead more, encoding c = lead :: more ∧
    width lead = c.utf8Size ∧ more.length + 1 = c.utf8Size ∧ ∀ b ∈ more, width b = 0 := by
  obtain ⟨lead, more, hc, hspells⟩ := encoding_spells c
  have hlength := length_encoding_eq c
  rw [hc] at hlength
  refine ⟨lead, more, hc, ?_, hlength, width_of_continued hspells.continued⟩
  rw [hspells.width, hlength]

/-- No character begins another one, so a text is read from its bytes in one way only. -/
theorem encoding_append_inj {c d : Char} {xs ys : List UInt8}
    (h : encoding c ++ xs = encoding d ++ ys) : c = d ∧ xs = ys := by
  have hread := congrArg lossy h
  rw [lossy_encoding, lossy_encoding] at hread
  have hsame : c = d := (List.cons.inj hread).1
  subst hsame
  exact ⟨rfl, List.append_cancel_left h⟩

/-- **Beginnings.** One text begins with another exactly if its bytes do. -/
theorem encode_prefix_iff {s t : List Char} : encode s <+: encode t ↔ s <+: t := by
  constructor
  · intro h
    induction s generalizing t with
    | nil => exact List.nil_prefix
    | cons c s ih =>
        obtain ⟨rest, hrest⟩ := h
        rw [encode_cons, List.append_assoc] at hrest
        cases t with
        | nil =>
            have hlength := congrArg List.length hrest
            have hpos := Char.utf8Size_pos c
            rw [List.length_append, length_encoding_eq, encode_nil, List.length_nil] at hlength
            omega
        | cons d t =>
            rw [encode_cons d] at hrest
            obtain ⟨rfl, hmore⟩ := encoding_append_inj hrest
            exact (List.prefix_cons_inj c).mpr (ih ⟨rest, hmore⟩)
  · rintro ⟨rest, rfl⟩
    rw [encode_append]
    exact List.prefix_append _ _

/-! ## Boundaries -/

/-- Whether a byte can only stand inside a character. -/
def isInner (b : UInt8) : Bool := 0x80 ≤ b && b < 0xC0

/-- Whether a place is at the end of the bytes, or a character may begin there. -/
def atBoundary (bytes : List UInt8) (n : Nat) : Bool :=
  n == bytes.length || bytes[n]?.any (!isInner ·)

theorem isInner_of_width {b : UInt8} (h : width b ≠ 0) : isInner b = false := by
  rw [width_eq] at h
  simp only [isInner, Bool.and_eq_false_iff, decide_eq_false_iff_not, UInt8.le_iff_toNat_le,
    UInt8.lt_iff_toNat_lt, UInt8.reduceToNat]
  split at h
  · omega
  · split at h <;> omega

/-- **Boundaries** lie between what stands before a place of a text and what stands behind it. -/
theorem atBoundary_encode (before after : List Char) :
    atBoundary (encode (before ++ after)) (byteLength before) = true := by
  rw [atBoundary, encode_append, ← length_encode, Bool.or_eq_true]
  cases after with
  | nil => exact Or.inl (by simp)
  | cons c after =>
      obtain ⟨lead, more, hc, hwidth, -⟩ := exists_encoding c
      have hpos := Char.utf8Size_pos c
      refine Or.inr ?_
      rw [List.getElem?_append_right (Nat.le_refl _), Nat.sub_self, encode_cons, hc]
      simp [isInner_of_width (b := lead) (by omega)]

/-! ## Characters by number -/

/-- Where characters begin in bytes of which the first stands at `at_`, and of which `skip` belong
to the character before. -/
def startsFrom : Nat → Nat → List UInt8 → List Nat
  | _, _, [] => []
  | at_, skip + 1, _ :: rest => startsFrom (at_ + 1) skip rest
  | at_, 0, lead :: rest => at_ :: startsFrom (at_ + 1) (width lead - 1) rest

/-- Where the characters of some bytes begin. -/
def starts (bytes : List UInt8) : List Nat := startsFrom 0 0 bytes

/-- Where character number `n` begins, or the end of the bytes if there is none. -/
def byteAt (bytes : List UInt8) (n : Nat) : Nat := (starts bytes)[n]?.getD bytes.length

/-- How many characters there are. -/
def charCount (bytes : List UInt8) : Nat := (starts bytes).length

theorem startsFrom_skip (at_ : Nat) (xs rest : List UInt8) :
    startsFrom at_ xs.length (xs ++ rest) = startsFrom (at_ + xs.length) 0 rest := by
  induction xs generalizing at_ with
  | nil => rfl
  | cons b xs ih =>
      rw [List.cons_append, List.length_cons, startsFrom, ih, Nat.add_right_comm, Nat.add_assoc]

theorem startsFrom_encode_cons (at_ : Nat) (c : Char) (s : List Char) :
    startsFrom at_ 0 (encode (c :: s)) = at_ :: startsFrom (at_ + c.utf8Size) 0 (encode s) := by
  obtain ⟨lead, more, hc, hwidth, hlength, -⟩ := exists_encoding c
  have hskip : width lead - 1 = more.length := by omega
  rw [encode_cons, hc, List.cons_append, startsFrom, hskip, startsFrom_skip, ← hlength,
    Nat.add_assoc, Nat.add_comm 1]

theorem startsFrom_encode (at_ : Nat) (s : List Char) : startsFrom at_ 0 (encode s) =
    (List.range s.length).map fun n => at_ + byteLength (s.take n) := by
  induction s generalizing at_ with
  | nil => rw [encode_nil, startsFrom, List.length_nil, List.range_zero, List.map_nil]
  | cons c s ih =>
      rw [startsFrom_encode_cons, ih, List.length_cons, List.range_succ_eq_map, List.map_cons,
        List.map_map]
      congr 1
      refine List.map_congr_left fun n _ => ?_
      show at_ + c.utf8Size + byteLength (s.take n) = at_ + (c.utf8Size + byteLength (s.take n))
      exact Nat.add_assoc _ _ _

theorem charCount_encode (s : List Char) : charCount (encode s) = s.length := by
  rw [charCount, starts, startsFrom_encode, List.length_map, List.length_range]

/-- **Places.** Behind as many characters, a text has as many bytes as they have. -/
theorem byteAt_encode (before after : List Char) :
    byteAt (encode (before ++ after)) before.length = byteLength before := by
  rw [byteAt, starts, startsFrom_encode, List.getElem?_map]
  cases after with
  | nil =>
      rw [List.append_nil, List.getElem?_eq_none (Nat.le_of_eq List.length_range)]
      exact length_encode before
  | cons c after =>
      rw [List.getElem?_range (by simp)]
      simp

end Dockboard.Text.Utf8
