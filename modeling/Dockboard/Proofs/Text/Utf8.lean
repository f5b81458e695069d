import Dockboard.Text.Utf8
import Mathlib.Data.List.Induction
import Mathlib.Data.List.Infix
import Mathlib.Data.Nat.Find

set_option autoImplicit false

/-! # Characters in a stream of bytes

What the reader of UTF-8 makes of bytes, told by the bytes of the characters themselves and not by
the machine that reads them.

    encoding c               the bytes of a character
    Begins bytes             some character begins with these bytes
    Incomplete bytes         some character does and has more of them; so of no bytes at all
    Broken part rest         before `rest`, `part` is what one replacement character stands for
    Decodes bytes text       `text` is what `bytes` write, broken parts being replaced
    Splits bytes whole held  `held` is the incomplete character at the end of `bytes`

A part is broken if no character is written where it begins. It is then as long as it can be as
the beginning of a character, or else a single byte.

The machine holds back exactly the incomplete beginnings (`step_incomplete`), which makes its text
the one that is decoded (`decodes_iff`), and what it has read before the end of a stream that of
all the bytes but those held back (`feed_splits`).
-/

namespace Dockboard.Text.Utf8

/-- The bytes of a character. -/
def encoding (c : Char) : List UInt8 := String.utf8EncodeChar c

/-- Some character begins with these bytes. -/
def Begins (bytes : List UInt8) : Prop := ∃ c, bytes <+: encoding c

/-- Some character begins with these bytes, and has more of them. -/
def Incomplete (bytes : List UInt8) : Prop := ∃ c, bytes <+: encoding c ∧ bytes ≠ encoding c

/-- Before `rest`, the bytes `part` are to be replaced: no character is written there, and nothing
longer than `part` begins one. -/
structure Broken (part rest : List UInt8) : Prop where
  unwritten : ∀ c, ¬ encoding c <+: part ++ rest
  start : part ≠ [] ∧ Begins part ∨ ∃ b, part = [b]
  longest : ∀ longer, longer <+: part ++ rest → Begins longer → longer.length ≤ part.length

/-- `text` is what `bytes` write, each maximal part that writes no character being replaced. -/
inductive Decodes : List UInt8 → List Char → Prop where
  | done : Decodes [] []
  | written (c : Char) {rest : List UInt8} {text : List Char} (h : Decodes rest text) :
      Decodes (encoding c ++ rest) (c :: text)
  | replaced {part rest : List UInt8} {text : List Char} (hbroken : Broken part rest)
      (h : Decodes rest text) : Decodes (part ++ rest) (replacement :: text)

/-- The bytes end with `held`, an incomplete character and the longest that they end with; `whole`
are those before it. -/
structure Splits (bytes whole held : List UInt8) : Prop where
  bytes_eq : bytes = whole ++ held
  incomplete : Incomplete held
  longest : ∀ ending, ending <:+ bytes → Incomplete ending → ending.length ≤ held.length

/-! ## Bytes as numbers -/

theorem follows_lead {a b : UInt8} :
    follows [a] b = true ↔ 0x80 ≤ b.toNat ∧ b.toNat < 0xC0 ∧ (a.toNat = 0xE0 → 0xA0 ≤ b.toNat) ∧
      (a.toNat = 0xF0 → 0x90 ≤ b.toNat) ∧ (a.toNat = 0xED → b.toNat < 0xA0) ∧
      (a.toNat = 0xF4 → b.toNat < 0x90) := by
  simp only [follows, Bool.and_eq_true, decide_eq_true_eq, UInt8.le_iff_toNat_le,
    ← UInt8.toNat_inj, apply_ite UInt8.toNat, UInt8.reduceToNat]
  split <;> split <;> (try split) <;> (try split) <;> omega

theorem follows_later {a b c : UInt8} {more : List UInt8} :
    follows (a :: b :: more) c = true ↔ 0x80 ≤ c.toNat ∧ c.toNat < 0xC0 := by
  simp only [follows, Bool.and_eq_true, decide_eq_true_eq, UInt8.le_iff_toNat_le,
    UInt8.reduceToNat]
  omega

/-- How many bytes a character has, by the first of them. -/
theorem width_eq (a : UInt8) :
    width a = if a.toNat < 0x80 then 1 else if a.toNat < 0xC2 then 0 else if a.toNat < 0xE0 then 2
      else if a.toNat < 0xF0 then 3 else if a.toNat < 0xF5 then 4 else 0 := by
  simp only [width, UInt8.lt_iff_toNat_lt, UInt8.reduceToNat]

/-- What a byte is that begins a character of some width. -/
theorem lead_bounds (a : UInt8) :
    (width a = 1 → a.toNat < 0x80) ∧ (width a = 2 → 0xC2 ≤ a.toNat ∧ a.toNat < 0xE0) ∧
      (width a = 3 → 0xE0 ≤ a.toNat ∧ a.toNat < 0xF0) ∧
      (width a = 4 → 0xF0 ≤ a.toNat ∧ a.toNat < 0xF5) := by
  rw [width_eq]
  repeat' split
  all_goals omega

theorem width_le (a : UInt8) : width a ≤ 4 := by
  rw [width_eq]
  repeat' split
  all_goals omega

theorem encoding_ofNat {n : Nat} (h : n.isValidChar) :
    encoding (Char.ofNat n) =
      if n ≤ 0x7F then [UInt8.ofNat n]
      else if n ≤ 0x7FF then [UInt8.ofNat (n / 64 % 32 + 192), UInt8.ofNat (n % 64 + 128)]
      else if n ≤ 0xFFFF then
        [UInt8.ofNat (n / 4096 % 16 + 224), UInt8.ofNat (n / 64 % 64 + 128),
          UInt8.ofNat (n % 64 + 128)]
      else
        [UInt8.ofNat (n / 262144 % 8 + 240), UInt8.ofNat (n / 4096 % 64 + 128),
          UInt8.ofNat (n / 64 % 64 + 128), UInt8.ofNat (n % 64 + 128)] := by
  have hval : (Char.ofNat n).val.toNat = n := by
    rw [Char.ofNat, dif_pos h]
    rfl
  simp only [encoding, String.utf8EncodeChar, hval]

theorem ofNat_eq {n : Nat} {a : UInt8} (h : n = a.toNat) : UInt8.ofNat n = a := by
  subst h
  exact UInt8.ofNat_toNat

theorem encoding_one {a : UInt8} (h : width a = 1) : encoding (decodeOne [a]) = [a] := by
  have ha := (lead_bounds a).1 h
  rw [decodeOne, encoding_ofNat (Or.inl (by omega)), if_pos (by omega), UInt8.ofNat_toNat]

theorem encoding_two {a b : UInt8} (h : width a = 2) (hb : follows [a] b = true) :
    encoding (decodeOne [a, b]) = [a, b] := by
  have ha := (lead_bounds a).2.1 h
  rw [follows_lead] at hb
  rw [decodeOne, encoding_ofNat (Or.inl (by omega)), if_neg (by omega), if_pos (by omega),
    ofNat_eq (a := a) (by omega), ofNat_eq (a := b) (by omega)]

theorem encoding_three {a b c : UInt8} (h : width a = 3) (hb : follows [a] b = true)
    (hc : follows [a, b] c = true) : encoding (decodeOne [a, b, c]) = [a, b, c] := by
  have ha := (lead_bounds a).2.2.1 h
  rw [follows_lead] at hb
  rw [follows_later] at hc
  have hvalid : (a.toNat % 0x10 * 0x1000 + b.toNat % 0x40 * 0x40 + c.toNat % 0x40).isValidChar := by
    show _ ∨ _
    omega
  rw [decodeOne, encoding_ofNat hvalid, if_neg (by omega), if_neg (by omega), if_pos (by omega),
    ofNat_eq (a := a) (by omega), ofNat_eq (a := b) (by omega), ofNat_eq (a := c) (by omega)]

theorem encoding_four {a b c d : UInt8} (h : width a = 4) (hb : follows [a] b = true)
    (hc : follows [a, b] c = true) (hd : follows [a, b, c] d = true) :
    encoding (decodeOne [a, b, c, d]) = [a, b, c, d] := by
  have ha := (lead_bounds a).2.2.2 h
  rw [follows_lead] at hb
  rw [follows_later] at hc hd
  have hvalid : (a.toNat % 0x08 * 0x40000 + b.toNat % 0x40 * 0x1000 + c.toNat % 0x40 * 0x40 +
      d.toNat % 0x40).isValidChar := by
    show _ ∨ _
    omega
  rw [decodeOne, encoding_ofNat hvalid, if_neg (by omega), if_neg (by omega), if_neg (by omega),
    ofNat_eq (a := a) (by omega), ofNat_eq (a := b) (by omega), ofNat_eq (a := c) (by omega),
    ofNat_eq (a := d) (by omega)]

/-! ## The bytes of one character -/

/-- Each byte but the first can continue those before it. -/
def Continued (bytes : List UInt8) : Prop :=
  ∀ held b, held ≠ [] → held ++ [b] <+: bytes → follows held b = true

theorem Continued.of_prefix {xs ys : List UInt8} (h : Continued ys) (hpre : xs <+: ys) :
    Continued xs :=
  fun held b hne hheld => h held b hne (hheld.trans hpre)

theorem continued_concat (held : List UInt8) {b : UInt8} (hne : held ≠ []) :
    Continued (held ++ [b]) ↔ Continued held ∧ follows held b = true := by
  constructor
  · intro h
    exact ⟨h.of_prefix (List.prefix_append held [b]), h held b hne (List.prefix_refl _)⟩
  · rintro ⟨hheld, hb⟩ xs y hxs hpre
    rcases List.prefix_concat_iff.mp hpre with heq | hpre
    · obtain ⟨rfl, hy⟩ := List.append_inj' heq rfl
      cases hy
      exact hb
    · exact hheld xs y hxs hpre

theorem continued_singleton (a : UInt8) : Continued [a] := by
  intro held b hne hpre
  have hlen := hpre.length_le
  rw [List.length_append, List.length_singleton, List.length_singleton] at hlen
  exact absurd (List.length_eq_zero_iff.mp (by omega)) hne

/-- Bytes of a character, as many as its first byte announces. -/
theorem encoding_decodeOne {lead : UInt8} {more : List UInt8}
    (hwidth : width lead = (lead :: more).length) (h : Continued (lead :: more)) :
    encoding (decodeOne (lead :: more)) = lead :: more := by
  match more with
  | [] => exact encoding_one hwidth
  | [b] => exact encoding_two hwidth (h [lead] b (by simp) (by simp))
  | [b, c] =>
      have hb := h [lead] b (by simp) (by simp)
      have hc := h [lead, b] c (by simp) (by simp)
      exact encoding_three hwidth hb hc
  | [b, c, d] =>
      have hb := h [lead] b (by simp) (by simp)
      have hc := h [lead, b] c (by simp) (by simp)
      have hd := h [lead, b, c] d (by simp) (by simp)
      exact encoding_four hwidth hb hc hd
  | b :: c :: d :: e :: more =>
      have hle := width_le lead
      simp only [List.length_cons] at hwidth
      omega

/-- A byte is read as the first of as many as there are, each of which continues those before it,
and together they are read as a character. -/
structure Spells (c : Char) (lead : UInt8) (more : List UInt8) : Prop where
  width : width lead = (lead :: more).length
  continued : Continued (lead :: more)
  char : decodeOne (lead :: more) = c

theorem spells_one {n : Nat} (h : n ≤ 0x7F) : Spells (Char.ofNat n) (UInt8.ofNat n) [] := by
  have ha := UInt8.toNat_ofNat_of_lt' (n := n) (show _ < 256 by omega)
  constructor
  · rw [width_eq, ha, if_pos (by omega)]
    rfl
  · exact continued_singleton _
  · rw [decodeOne, ha]

theorem spells_two {n : Nat} (h1 : 0x7F < n) (h2 : n ≤ 0x7FF) :
    Spells (Char.ofNat n) (UInt8.ofNat (n / 64 % 32 + 192)) [UInt8.ofNat (n % 64 + 128)] := by
  have ha := UInt8.toNat_ofNat_of_lt' (n := n / 64 % 32 + 192) (show _ < 256 by omega)
  have hb := UInt8.toNat_ofNat_of_lt' (n := n % 64 + 128) (show _ < 256 by omega)
  constructor
  · rw [width_eq, ha, if_neg (by omega), if_neg (by omega), if_pos (by omega)]
    rfl
  · refine (continued_concat [_] (by simp)).mpr ⟨continued_singleton _, ?_⟩
    rw [follows_lead, ha, hb]
    omega
  · rw [decodeOne, ha, hb]
    congr 1
    omega

theorem spells_three {n : Nat} (h1 : 0x7FF < n) (h2 : n ≤ 0xFFFF)
    (hvalid : n < 0xD800 ∨ 0xDFFF < n) :
    Spells (Char.ofNat n) (UInt8.ofNat (n / 4096 % 16 + 224))
      [UInt8.ofNat (n / 64 % 64 + 128), UInt8.ofNat (n % 64 + 128)] := by
  have ha := UInt8.toNat_ofNat_of_lt' (n := n / 4096 % 16 + 224) (show _ < 256 by omega)
  have hb := UInt8.toNat_ofNat_of_lt' (n := n / 64 % 64 + 128) (show _ < 256 by omega)
  have hc := UInt8.toNat_ofNat_of_lt' (n := n % 64 + 128) (show _ < 256 by omega)
  constructor
  · rw [width_eq, ha, if_neg (by omega), if_neg (by omega), if_neg (by omega), if_pos (by omega)]
    rfl
  · refine (continued_concat [_, _] (by simp)).mpr
      ⟨(continued_concat [_] (by simp)).mpr ⟨continued_singleton _, ?_⟩, ?_⟩
    · rw [follows_lead, ha, hb]
      omega
    · rw [follows_later, hc]
      omega
  · rw [decodeOne, ha, hb, hc]
    congr 1
    omega

theorem spells_four {n : Nat} (h1 : 0xFFFF < n) (h2 : n < 0x110000) :
    Spells (Char.ofNat n) (UInt8.ofNat (n / 262144 % 8 + 240))
      [UInt8.ofNat (n / 4096 % 64 + 128), UInt8.ofNat (n / 64 % 64 + 128),
        UInt8.ofNat (n % 64 + 128)] := by
  have ha := UInt8.toNat_ofNat_of_lt' (n := n / 262144 % 8 + 240) (show _ < 256 by omega)
  have hb := UInt8.toNat_ofNat_of_lt' (n := n / 4096 % 64 + 128) (show _ < 256 by omega)
  have hc := UInt8.toNat_ofNat_of_lt' (n := n / 64 % 64 + 128) (show _ < 256 by omega)
  have hd := UInt8.toNat_ofNat_of_lt' (n := n % 64 + 128) (show _ < 256 by omega)
  constructor
  · rw [width_eq, ha, if_neg (by omega), if_neg (by omega), if_neg (by omega), if_neg (by omega),
      if_pos (by omega)]
    rfl
  · refine (continued_concat [_, _, _] (by simp)).mpr
      ⟨(continued_concat [_, _] (by simp)).mpr
        ⟨(continued_concat [_] (by simp)).mpr ⟨continued_singleton _, ?_⟩, ?_⟩, ?_⟩
    · rw [follows_lead, ha, hb]
      omega
    · rw [follows_later, hc]
      omega
    · rw [follows_later, hd]
      omega
  · rw [decodeOne, ha, hb, hc, hd]
    congr 1
    omega

/-- The bytes of a character spell it. -/
theorem encoding_spells (c : Char) :
    ∃ lead more, encoding c = lead :: more ∧ Spells c lead more := by
  obtain ⟨n, hvalid, rfl⟩ : ∃ n, n.isValidChar ∧ c = Char.ofNat n :=
    ⟨c.toNat, c.valid, (Char.ofNat_toNat c).symm⟩
  have hmax : n < 0x110000 ∧ (n < 0xD800 ∨ 0xDFFF < n) := by
    rcases hvalid with h | h <;> omega
  rw [encoding_ofNat hvalid]
  by_cases h1 : n ≤ 0x7F
  · rw [if_pos h1]
    exact ⟨_, _, rfl, spells_one h1⟩
  by_cases h2 : n ≤ 0x7FF
  · rw [if_neg h1, if_pos h2]
    exact ⟨_, _, rfl, spells_two (by omega) h2⟩
  by_cases h3 : n ≤ 0xFFFF
  · rw [if_neg h1, if_neg h2, if_pos h3]
    exact ⟨_, _, rfl, spells_three (by omega) h3 hmax.2⟩
  · rw [if_neg h1, if_neg h2, if_neg h3]
    exact ⟨_, _, rfl, spells_four (by omega) hmax.1⟩

/-- Where there are bytes there is one that can continue them. -/
theorem exists_follows (lead : UInt8) (more : List UInt8) :
    ∃ b, follows (lead :: more) b = true := by
  cases more with
  | nil =>
      -- After these two leads the second byte cannot be as low as after the others.
      by_cases h1 : lead.toNat = 0xE0
      · exact ⟨0xA0, follows_lead.mpr (by rw [h1]; decide)⟩
      by_cases h2 : lead.toNat = 0xF0
      · exact ⟨0x90, follows_lead.mpr (by rw [h2]; decide)⟩
      · refine ⟨0x80, follows_lead.mpr ?_⟩
        simp [h1, h2]
  | cons b more => exact ⟨0x80, follows_later.mpr (by decide)⟩

/-- What can be continued begins a character. -/
theorem begins_of_continued {lead : UInt8} {more : List UInt8} (h : Continued (lead :: more))
    (hwidth : (lead :: more).length ≤ width lead) : Begins (lead :: more) := by
  -- The induction is on the bytes that the character still lacks.
  obtain ⟨missing, hmissing⟩ := Nat.exists_eq_add_of_le hwidth
  induction missing generalizing more with
  | zero =>
      refine ⟨decodeOne (lead :: more), ?_⟩
      rw [encoding_decodeOne hmissing h]
  | succ missing ih =>
      obtain ⟨b, hb⟩ := exists_follows lead more
      have hlen : (lead :: (more ++ [b])).length = (lead :: more).length + 1 := by simp
      have hnext : Continued (lead :: (more ++ [b])) :=
        (continued_concat (lead :: more) (by simp)).mpr ⟨h, hb⟩
      obtain ⟨c, hc⟩ := ih hnext (by omega) (by omega)
      exact ⟨c, (List.prefix_append (lead :: more) [b]).trans hc⟩

/-- The beginnings of characters, as the machine knows them. -/
theorem begins_cons {lead : UInt8} {more : List UInt8} :
    Begins (lead :: more) ↔
      Continued (lead :: more) ∧ (lead :: more).length ≤ width lead := by
  constructor
  · rintro ⟨c, hpre⟩
    obtain ⟨first, rest, heq, hspells⟩ := encoding_spells c
    rw [heq] at hpre
    obtain ⟨rfl, -⟩ := List.cons_prefix_cons.mp hpre
    exact ⟨hspells.continued.of_prefix hpre, hspells.width ▸ hpre.length_le⟩
  · rintro ⟨hcontinued, hwidth⟩
    exact begins_of_continued hcontinued hwidth

/-- A character's bytes are as many as the first announces. -/
theorem length_encoding {c : Char} {lead : UInt8} {more : List UInt8}
    (h : lead :: more <+: encoding c) : (encoding c).length = width lead := by
  obtain ⟨first, rest, heq, hspells⟩ := encoding_spells c
  rw [heq] at h ⊢
  obtain ⟨rfl, -⟩ := List.cons_prefix_cons.mp h
  exact hspells.width.symm

theorem incomplete_cons {lead : UInt8} {more : List UInt8} :
    Incomplete (lead :: more) ↔
      Continued (lead :: more) ∧ (lead :: more).length < width lead := by
  constructor
  · rintro ⟨c, hpre, hne⟩
    obtain ⟨hcontinued, hle⟩ := begins_cons.mp ⟨c, hpre⟩
    refine ⟨hcontinued, Nat.lt_of_le_of_ne hle fun heq => hne (hpre.eq_of_length ?_)⟩
    rw [length_encoding hpre, heq]
  · rintro ⟨hcontinued, hlt⟩
    obtain ⟨c, hpre⟩ := begins_of_continued hcontinued (Nat.le_of_lt hlt)
    refine ⟨c, hpre, fun heq => ?_⟩
    have hlen := length_encoding hpre
    rw [← heq] at hlen
    omega

theorem incomplete_nil : Incomplete [] := by
  obtain ⟨lead, more, heq, -⟩ := encoding_spells 'a'
  exact ⟨'a', List.nil_prefix, by rw [heq]; simp⟩

/-- What a byte is with nothing before it: one that begins no character, a whole one, or the
beginning of one. -/
theorem next_of_nil (b : UInt8) :
    (width b = 0 ∧ ¬ Begins [b]) ∨
    (width b = 1 ∧ encoding (decodeOne [b]) = [b]) ∨
    (1 < width b ∧ Incomplete [b]) := by
  by_cases h0 : width b = 0
  · refine Or.inl ⟨h0, fun hbegins => ?_⟩
    have hle := (begins_cons.mp hbegins).2
    rw [h0] at hle
    exact absurd hle (by simp)
  by_cases h1 : width b = 1
  · exact Or.inr (Or.inl ⟨h1, encoding_decodeOne h1 (continued_singleton b)⟩)
  · have hlt : 1 < width b := by omega
    exact Or.inr (Or.inr ⟨hlt, incomplete_cons.mpr ⟨continued_singleton b, hlt⟩⟩)

/-- What a byte is behind the beginning of a character: one that does not continue it, its last one,
or one after which it is still incomplete. -/
theorem next_of_cons {lead : UInt8} {more : List UInt8} (h : Incomplete (lead :: more))
    (b : UInt8) :
    (follows (lead :: more) b = false ∧ ¬ Begins (lead :: more ++ [b])) ∨
    (follows (lead :: more) b = true ∧ (lead :: more).length + 1 = width lead ∧
      encoding (decodeOne (lead :: more ++ [b])) = lead :: more ++ [b]) ∨
    (follows (lead :: more) b = true ∧ (lead :: more).length + 1 ≠ width lead ∧
      Incomplete (lead :: more ++ [b])) := by
  obtain ⟨hcontinued, hlt⟩ := incomplete_cons.mp h
  have hlen : (lead :: (more ++ [b])).length = (lead :: more).length + 1 := by simp
  rw [List.cons_append]
  cases hb : follows (lead :: more) b with
  | false =>
      refine Or.inl ⟨rfl, fun hbegins => ?_⟩
      have hnext := (begins_cons.mp hbegins).1
      rw [((continued_concat (lead :: more) (by simp)).mp hnext).2] at hb
      cases hb
  | true =>
      have hnext : Continued (lead :: (more ++ [b])) :=
        (continued_concat (lead :: more) (by simp)).mpr ⟨hcontinued, hb⟩
      by_cases hwhole : (lead :: more).length + 1 = width lead
      · exact Or.inr (Or.inl ⟨rfl, hwhole, encoding_decodeOne (hwhole.symm.trans hlen.symm) hnext⟩)
      · exact Or.inr (Or.inr ⟨rfl, hwhole, incomplete_cons.mpr ⟨hnext, by omega⟩⟩)

/-- **One byte.** The machine, holding back the beginning of a character, completes the character,
or holds back a longer beginning, or gives up what it held and reads the byte anew. -/
theorem step_incomplete {held : List UInt8} (h : Incomplete held) (b : UInt8) :
    (∃ c, held ++ [b] = encoding c ∧ step held b = ([], [c])) ∨
    (Incomplete (held ++ [b]) ∧ step held b = (held ++ [b], [])) ∨
    ¬ Begins (held ++ [b]) ∧
      step held b =
        if held = [] then ([], [replacement])
        else ((step [] b).1, replacement :: (step [] b).2) := by
  cases held with
  | nil =>
      simp only [List.nil_append, step, start, if_true]
      rcases next_of_nil b with ⟨h0, hnot⟩ | ⟨h1, hwhole⟩ | ⟨hlt, hnext⟩
      · exact Or.inr (Or.inr ⟨hnot, if_pos h0⟩)
      · exact Or.inl ⟨decodeOne [b], hwhole.symm, by rw [if_neg (by omega), if_pos h1]⟩
      · exact Or.inr (Or.inl ⟨hnext, by rw [if_neg (by omega), if_neg (by omega)]⟩)
  | cons lead more =>
      simp only [step]
      rcases next_of_cons h b with ⟨hb, hnot⟩ | ⟨hb, hlen, hwhole⟩ | ⟨hb, hlen, hnext⟩
      · exact Or.inr (Or.inr ⟨hnot, by simp [hb]⟩)
      · exact Or.inl ⟨_, hwhole.symm, by rw [if_pos hb, if_pos hlen]⟩
      · exact Or.inr (Or.inl ⟨hnext, by rw [if_pos hb, if_neg hlen]⟩)

/-! ## Text -/

theorem feed_nil (held : List UInt8) : feed held [] = (held, []) := rfl

theorem feed_cons (held : List UInt8) (b : UInt8) (rest : List UInt8) :
    feed held (b :: rest) =
      ((feed (step held b).1 rest).1, (step held b).2 ++ (feed (step held b).1 rest).2) := rfl

theorem feed_concat (held bytes : List UInt8) (b : UInt8) :
    feed held (bytes ++ [b]) =
      ((step (feed held bytes).1 b).1, (feed held bytes).2 ++ (step (feed held bytes).1 b).2) := by
  rw [feed_append, feed_cons, feed_nil, List.append_nil]

theorem Incomplete.of_concat {held : List UInt8} {b : UInt8} (h : Begins (held ++ [b])) :
    Incomplete held := by
  obtain ⟨c, hpre⟩ := h
  refine ⟨c, (List.prefix_append held [b]).trans hpre, fun heq => ?_⟩
  have hle := hpre.length_le
  rw [← heq, List.length_append, List.length_singleton] at hle
  omega

theorem not_incomplete_encoding (c : Char) : ¬ Incomplete (encoding c) := by
  obtain ⟨lead, more, heq, hspells⟩ := encoding_spells c
  rw [heq, incomplete_cons]
  rintro ⟨-, hlt⟩
  exact absurd hspells.width (Nat.ne_of_gt hlt)

theorem encoding_injective {c d : Char} (h : encoding c = encoding d) : c = d := by
  obtain ⟨lead, more, hc, hspells⟩ := encoding_spells c
  obtain ⟨first, rest, hd, hspells'⟩ := encoding_spells d
  rw [hc, hd] at h
  rw [← hspells.char, ← hspells'.char, h]

theorem encoding_ne_nil (c : Char) : encoding c ≠ [] := by
  obtain ⟨lead, more, heq, -⟩ := encoding_spells c
  rw [heq]
  exact List.cons_ne_nil lead more

/-- The beginning of a character is held back. -/
theorem feed_incomplete {held : List UInt8} (h : Incomplete held) : feed [] held = (held, []) := by
  induction held using List.reverseRecOn with
  | nil => rfl
  | append_singleton held b ih =>
      obtain ⟨c, hpre, -⟩ := id h
      have hheld : Incomplete held := .of_concat ⟨c, hpre⟩
      rw [feed_concat, ih hheld, List.nil_append]
      rcases step_incomplete hheld b with ⟨d, hd, -⟩ | ⟨-, hstep⟩ | ⟨hnot, -⟩
      · rw [hd] at h
        exact absurd h (not_incomplete_encoding d)
      · exact hstep
      · exact absurd ⟨c, hpre⟩ hnot

theorem feed_encoding (c : Char) : feed [] (encoding c) = ([], [c]) := by
  obtain ⟨held, b, heq⟩ : ∃ held b, encoding c = held ++ [b] :=
    ⟨_, _, (List.dropLast_concat_getLast (encoding_ne_nil c)).symm⟩
  have hbegins : Begins (held ++ [b]) := ⟨c, heq ▸ List.prefix_refl _⟩
  have hheld : Incomplete held := .of_concat hbegins
  rw [heq, feed_concat, feed_incomplete hheld, List.nil_append]
  rcases step_incomplete hheld b with ⟨d, hd, hstep⟩ | ⟨hincomplete, -⟩ | ⟨hnot, -⟩
  · rw [hstep, encoding_injective (heq.trans hd)]
  · rw [← heq] at hincomplete
    exact absurd hincomplete (not_incomplete_encoding c)
  · exact absurd hbegins hnot

theorem lossy_encoding (c : Char) (rest : List UInt8) :
    lossy (encoding c ++ rest) = c :: lossy rest := by
  rw [lossy, feed_append, feed_encoding]
  rfl

/-- What is to be replaced is given up for one replacement character as soon as it is known that no
byte can complete it. -/
theorem feed_broken {part rest : List UInt8} (h : Broken part rest)
    (hnot : ¬ Incomplete (part ++ rest)) :
    feed [] (part ++ rest) = ((feed [] rest).1, replacement :: (feed [] rest).2) := by
  by_cases hbegins : part ≠ [] ∧ Begins part
  · obtain ⟨hne, c, hpre⟩ := hbegins
    have hheld : Incomplete part := by
      refine ⟨c, hpre, fun heq => h.unwritten c ?_⟩
      rw [heq]
      exact List.prefix_append _ _
    rw [feed_append, feed_incomplete hheld]
    cases rest with
    | nil => exact absurd ((List.append_nil part).symm ▸ hheld) hnot
    | cons b rest =>
        have hmore : part ++ [b] <+: part ++ b :: rest := ⟨rest, by simp⟩
        rcases step_incomplete hheld b with ⟨d, hd, -⟩ | ⟨⟨d, hd, -⟩, -⟩ | ⟨-, hstep⟩
        · rw [hd] at hmore
          exact absurd hmore (h.unwritten d)
        · have hle := h.longest _ hmore ⟨d, hd⟩
          rw [List.length_append, List.length_singleton] at hle
          omega
        · rw [if_neg hne] at hstep
          rw [feed_cons, hstep, feed_cons]
          simp
  · obtain ⟨b, rfl⟩ := h.start.resolve_left hbegins
    rcases step_incomplete incomplete_nil b with ⟨d, hd, -⟩ | ⟨⟨d, hd, -⟩, -⟩ | ⟨-, hstep⟩
    · refine absurd ?_ (h.unwritten d)
      rw [← hd]
      exact List.prefix_append [b] rest
    · exact absurd ⟨by simp, d, hd⟩ hbegins
    · rw [if_pos rfl] at hstep
      rw [List.singleton_append, feed_cons, hstep]
      rfl

/-- The beginning of a character that is never completed is replaced as a whole. -/
theorem lossy_incomplete {held : List UInt8} (h : Incomplete held) : lossy held = flush held := by
  rw [lossy, feed_incomplete h]
  rfl

/-- What is to be replaced is read as one replacement character. -/
theorem lossy_broken {part rest : List UInt8} (h : Broken part rest) :
    lossy (part ++ rest) = replacement :: lossy rest := by
  by_cases hheld : Incomplete (part ++ rest)
  · -- Nothing longer than the part begins a character, so there is nothing behind it.
    obtain ⟨c, hpre, hne⟩ := id hheld
    have hle := h.longest _ (List.prefix_refl _) ⟨c, hpre⟩
    obtain rfl : rest = [] := by
      rw [List.length_append] at hle
      exact List.length_eq_zero_iff.mp (by omega)
    have hpart : part ≠ [] := by
      rcases h.start with ⟨hpart, -⟩ | ⟨b, rfl⟩
      · exact hpart
      · exact List.cons_ne_nil b []
    rw [lossy_incomplete hheld, List.append_nil]
    exact if_neg (by simpa using hpart)
  · rw [lossy, feed_broken h hheld]
    rfl

/-- Where no character is written there is something to be replaced. -/
theorem exists_broken {bytes : List UInt8} (hne : bytes ≠ [])
    (h : ∀ c, ¬ encoding c <+: bytes) : ∃ part rest, bytes = part ++ rest ∧ Broken part rest := by
  classical
  -- The longest piece that begins a character, or else one byte.
  let most := Nat.findGreatest (fun n => Begins (bytes.take n)) bytes.length
  have hmost : Begins (bytes.take most) :=
    Nat.findGreatest_spec (P := fun n => Begins (bytes.take n)) (Nat.zero_le _)
      ⟨'a', by rw [List.take_zero]; exact List.nil_prefix⟩
  have hlongest (longer : List UInt8) (hpre : longer <+: bytes) (hbegins : Begins longer) :
      longer.length ≤ most := by
    rw [List.prefix_iff_eq_take.mp hpre] at hbegins
    exact Nat.le_findGreatest hpre.length_le hbegins
  have hle : most ≤ bytes.length := Nat.findGreatest_le _
  refine ⟨bytes.take (max most 1), bytes.drop (max most 1), (List.take_append_drop _ _).symm, ?_⟩
  have hpos : 0 < bytes.length := List.length_pos_iff.mpr hne
  constructor
  · rw [List.take_append_drop]
    exact h
  · by_cases hzero : most = 0
    · refine Or.inr (List.length_eq_one_iff.mp ?_)
      rw [List.length_take]
      omega
    · have hmax : max most 1 = most := by omega
      rw [hmax]
      refine Or.inl ⟨fun hnil => ?_, hmost⟩
      have hlen := congrArg List.length hnil
      rw [List.length_take, List.length_nil] at hlen
      omega
  · rw [List.take_append_drop]
    intro longer hpre hbegins
    have hlen := hlongest longer hpre hbegins
    rw [List.length_take]
    omega

/-- **Decoding.** The text of some bytes is what they write, each maximal part that writes no
character being replaced by one replacement character. -/
theorem decodes_iff {bytes : List UInt8} {text : List Char} :
    Decodes bytes text ↔ text = lossy bytes := by
  constructor
  · intro h
    induction h with
    | done => rfl
    | written c _ ih => rw [lossy_encoding, ih]
    | replaced hbroken _ ih => rw [lossy_broken hbroken, ih]
  · rintro rfl
    induction hlen : bytes.length using Nat.strongRecOn generalizing bytes with
    | ind n ih =>
        subst hlen
        by_cases hnil : bytes = []
        · subst hnil
          exact .done
        by_cases hwritten : ∃ c, encoding c <+: bytes
        · obtain ⟨c, rest, rfl⟩ := hwritten
          have hpos := List.length_pos_iff.mpr (encoding_ne_nil c)
          rw [lossy_encoding]
          exact .written c (ih rest.length (by rw [List.length_append]; omega) rfl)
        · obtain ⟨part, rest, rfl, hbroken⟩ := exists_broken hnil (not_exists.mp hwritten)
          have hpos : 0 < part.length := by
            rcases hbroken.start with ⟨hne, -⟩ | ⟨b, rfl⟩
            · exact List.length_pos_iff.mpr hne
            · exact Nat.one_pos
          rw [lossy_broken hbroken]
          exact .replaced hbroken (ih rest.length (by rw [List.length_append]; omega) rfl)

/-- What is held back after some bytes is the beginning of a character, and what has been read is
the text of the bytes before it. -/
theorem feed_split (bytes : List UInt8) :
    ∃ whole, bytes = whole ++ (feed [] bytes).1 ∧ (feed [] bytes).2 = lossy whole ∧
      Incomplete (feed [] bytes).1 := by
  induction bytes using List.reverseRecOn with
  | nil => exact ⟨[], rfl, rfl, incomplete_nil⟩
  | append_singleton bytes b ih =>
      obtain ⟨whole, hbytes, htext, hheld⟩ := ih
      have hlossy : lossy bytes = (feed [] bytes).2 ++ flush (feed [] bytes).1 := rfl
      rw [feed_concat]
      by_cases hnone : (step (feed [] bytes).1 b).1 = []
      · refine ⟨bytes ++ [b], ?_, ?_, ?_⟩
        · rw [hnone, List.append_nil]
        · rw [lossy, feed_concat, hnone]
          exact (List.append_nil _).symm
        · rw [hnone]
          exact incomplete_nil
      rcases step_incomplete hheld b with ⟨c, -, hstep⟩ | ⟨hnext, hstep⟩ | ⟨-, hstep⟩
      · rw [hstep] at hnone
        exact absurd rfl hnone
      · refine ⟨whole, ?_, ?_, ?_⟩
        · rw [hstep, ← List.append_assoc, ← hbytes]
        · rw [hstep, List.append_nil, htext]
        · rw [hstep]
          exact hnext
      · -- What was held is given up, and `b` begins another character.
        by_cases hnil : (feed [] bytes).1 = []
        · rw [if_pos hnil] at hstep
          rw [hstep] at hnone
          exact absurd rfl hnone
        rw [if_neg hnil] at hstep
        rw [hstep] at hnone ⊢
        have hflush : flush (feed [] bytes).1 = [replacement] := if_neg (by simpa using hnil)
        rcases step_incomplete incomplete_nil b with ⟨c, -, hfirst⟩ | ⟨hfirst, hheld'⟩ | ⟨-, hfirst⟩
        · rw [hfirst] at hnone
          exact absurd rfl hnone
        · rw [hheld']
          exact ⟨bytes, rfl, by rw [hlossy, hflush], hfirst⟩
        · rw [hfirst] at hnone
          exact absurd rfl hnone

/-- A byte that continues a character begins none. -/
theorem width_of_follows {held : List UInt8} {b : UInt8} (h : follows held b = true) :
    width b = 0 := by
  have hb : 0x80 ≤ b.toNat ∧ b.toNat < 0xC0 := by
    match held with
    | [] => cases h
    | [lead] =>
        obtain ⟨hle, hlt, -⟩ := follows_lead.mp h
        exact ⟨hle, hlt⟩
    | lead :: second :: more => exact follows_later.mp h
  rw [width_eq, if_neg (by omega), if_pos (by omega)]

/-- A byte that begins a character continues none. -/
theorem not_begins_concat {held : List UInt8} {b : UInt8} (hne : held ≠ []) (hb : Begins [b]) :
    ¬ Begins (held ++ [b]) := by
  intro hbegins
  cases held with
  | nil => exact hne rfl
  | cons lead more =>
      have hcontinued := (begins_cons.mp hbegins).1
      have hfollows := ((continued_concat (lead :: more) hne).mp hcontinued).2
      have hwidth := (begins_cons.mp hb).2
      rw [width_of_follows hfollows] at hwidth
      exact absurd hwidth (by simp)

/-- Where a character begins, what is held back is given up. -/
theorem feed_broken_off {held : List UInt8} {b : UInt8} (hheld : Incomplete held) (hne : held ≠ [])
    (hb : Begins [b]) (rest : List UInt8) :
    feed held (b :: rest) =
      ((feed [] (b :: rest)).1, replacement :: (feed [] (b :: rest)).2) := by
  have hnot := not_begins_concat hne hb
  rcases step_incomplete hheld b with ⟨c, hc, -⟩ | ⟨⟨c, hc, -⟩, -⟩ | ⟨-, hstep⟩
  · exact absurd ⟨c, hc ▸ List.prefix_refl _⟩ hnot
  · exact absurd ⟨c, hc⟩ hnot
  · rw [if_neg hne] at hstep
    rw [feed_cons, hstep, feed_cons]
    rfl

/-- The beginning of a character is held back, whatever was held before. -/
theorem feed_lead {held : List UInt8} {lead : UInt8} {more : List UInt8} (hheld : Incomplete held)
    (h : Incomplete (lead :: more)) : (feed held (lead :: more)).1 = lead :: more := by
  have hfeed := congrArg Prod.fst (feed_incomplete h)
  by_cases hne : held = []
  · rw [hne]
    exact hfeed
  · obtain ⟨c, hpre, -⟩ := h
    have hlead : Begins [lead] := ⟨c, (List.prefix_append [lead] more).trans hpre⟩
    rw [feed_broken_off hheld hne hlead]
    exact hfeed

/-- What is held back after some bytes is the incomplete character at their end, and what has been
read is the text of the bytes before it. -/
theorem feed_splits (bytes : List UInt8) :
    ∃ whole, Splits bytes whole (feed [] bytes).1 ∧ (feed [] bytes).2 = lossy whole := by
  obtain ⟨whole, hbytes, htext, hheld⟩ := feed_split bytes
  refine ⟨whole, ⟨hbytes, hheld, ?_⟩, htext⟩
  rintro ending ⟨earlier, rfl⟩ hending
  -- However the bytes before it are read, its first byte is held back anew.
  cases ending with
  | nil => exact Nat.zero_le _
  | cons lead more =>
      obtain ⟨-, -, -, hearlier⟩ := feed_split earlier
      rw [feed_append, feed_lead hearlier hending]

theorem Splits.unique {bytes whole held whole' held' : List UInt8} (h : Splits bytes whole held)
    (h' : Splits bytes whole' held') : whole = whole' ∧ held = held' := by
  have hsuffix : held <:+ bytes := ⟨whole, h.bytes_eq.symm⟩
  have hsuffix' : held' <:+ bytes := ⟨whole', h'.bytes_eq.symm⟩
  have hle := h'.longest held hsuffix h.incomplete
  have hge := h.longest held' hsuffix' h'.incomplete
  have hheld : held = held' :=
    (List.suffix_of_suffix_length_le hsuffix hsuffix' hle).eq_of_length (Nat.le_antisymm hle hge)
  subst hheld
  exact ⟨List.append_cancel_right (h.bytes_eq.symm.trans h'.bytes_eq), rfl⟩

/-- The text before the incomplete character at the end. -/
theorem Splits.lossy_eq {bytes whole held : List UInt8} (h : Splits bytes whole held) :
    lossy whole = (feed [] bytes).2 := by
  obtain ⟨read, hread, htext⟩ := feed_splits bytes
  rw [(h.unique hread).1, htext]

end Dockboard.Text.Utf8
