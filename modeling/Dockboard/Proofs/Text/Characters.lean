import Dockboard.Proofs.Text.Utf8

set_option autoImplicit false

/-! # Whole and broken characters

What is read of bytes that are a text, of those that begin one, and of those in which a character is
broken off by another one.

    Whole bytes        some text is written by these bytes
    leads bytes        how many of the bytes begin a character
    announced bytes    how many bytes the characters have that begin there

A text has as many leads as characters, and as many bytes as they announce. None of the three
numbers depends on the order of the bytes, so they show that bytes have been put in the wrong order:
one character is read for each lead then, and one more for each byte that is left over
(`length_lossy`). Whenever a character is broken off, some byte of it is left over
(`length_lossy_broken_off`).
-/

namespace Dockboard.Text.Utf8

/-! ## Texts -/

/-- Some text is written by these bytes. -/
def Whole (bytes : List UInt8) : Prop := ∃ text : List Char, bytes = text.flatMap encoding

/-- **A text** is read as it is written, and nothing of it is held back. -/
theorem feed_text (text : List Char) : feed [] (text.flatMap encoding) = ([], text) := by
  induction text with
  | nil => rfl
  | cons c text ih =>
      rw [List.flatMap_cons, feed_append, feed_encoding, ih]
      rfl

theorem lossy_text (text : List Char) : lossy (text.flatMap encoding) = text := by
  rw [lossy, feed_text]
  exact List.append_nil text

/-- The beginning of a text is another text and the beginning of a character. -/
theorem exists_of_prefix {bytes : List UInt8} {text : List Char}
    (h : bytes <+: text.flatMap encoding) :
    ∃ done left held, text = done ++ left ∧ bytes = done.flatMap encoding ++ held ∧
      Incomplete held := by
  induction text generalizing bytes with
  | nil => exact ⟨[], [], [], rfl, by simpa using h, incomplete_nil⟩
  | cons c text ih =>
      rw [List.flatMap_cons] at h
      -- The bytes end inside the first character or behind it.
      rcases List.prefix_or_prefix_of_prefix h (List.prefix_append _ _) with hpre | ⟨more, rfl⟩
      · by_cases hwhole : bytes = encoding c
        · exact ⟨[c], text, [], rfl, by simp [hwhole], incomplete_nil⟩
        · exact ⟨[], c :: text, bytes, rfl, rfl, c, hpre, hwhole⟩
      · obtain ⟨done, left, held, rfl, rfl, hheld⟩ :=
          ih ((List.prefix_append_right_inj (encoding c)).mp h)
        exact ⟨c :: done, left, held, rfl, by simp, hheld⟩

/-- The beginning of a text is whole characters exactly if nothing of it is held back. -/
theorem whole_iff {bytes : List UInt8} {text : List Char} (h : bytes <+: text.flatMap encoding) :
    Whole bytes ↔ (feed [] bytes).1 = [] := by
  constructor
  · rintro ⟨text, rfl⟩
    rw [feed_text]
  · intro hnone
    obtain ⟨done, left, held, -, rfl, hheld⟩ := exists_of_prefix h
    rw [feed_append, feed_text, feed_incomplete hheld] at hnone
    subst hnone
    exact ⟨done, List.append_nil _⟩

/-- Behind whole characters of a text another one begins. -/
theorem begins_of_whole {bytes : List UInt8} {b : UInt8} {text : List Char}
    (h : bytes ++ [b] <+: text.flatMap encoding) (hnone : (feed [] bytes).1 = []) :
    Begins [b] := by
  obtain ⟨done, left, held, rfl, rfl, hheld⟩ :=
    exists_of_prefix ((List.prefix_append bytes [b]).trans h)
  rw [feed_append, feed_text, feed_incomplete hheld] at hnone
  subst hnone
  rw [List.append_nil, List.flatMap_append, List.prefix_append_right_inj] at h
  cases left with
  | nil => simp at h
  | cons c left =>
      obtain ⟨lead, more, hc, -⟩ := encoding_spells c
      rw [List.flatMap_cons, hc, List.cons_append, List.cons_prefix_cons] at h
      exact ⟨c, by rw [hc, h.1]; exact List.prefix_append [lead] more⟩

/-! ## Leads -/

/-- How many of the bytes begin a character. -/
def leads (bytes : List UInt8) : Nat := bytes.countP fun b => width b != 0

/-- How many bytes the characters have that begin in these bytes. -/
def announced : List UInt8 → Nat
  | [] => 0
  | b :: rest => width b + announced rest

@[simp] theorem leads_append (xs ys : List UInt8) : leads (xs ++ ys) = leads xs + leads ys :=
  List.countP_append

@[simp] theorem announced_append (xs ys : List UInt8) :
    announced (xs ++ ys) = announced xs + announced ys := by
  induction xs with
  | nil => exact (Nat.zero_add _).symm
  | cons b xs ih => rw [List.cons_append, announced, announced, ih, Nat.add_assoc]

theorem leads_perm {xs ys : List UInt8} (h : xs.Perm ys) : leads xs = leads ys := h.countP_eq _

theorem announced_perm {xs ys : List UInt8} (h : xs.Perm ys) : announced xs = announced ys := by
  induction h with
  | nil => rfl
  | cons b _ ih => rw [announced, announced, ih]
  | swap a b xs =>
      simp only [announced]
      omega
  | trans _ _ ih ih' => exact ih.trans ih'

theorem announced_eq_zero {bytes : List UInt8} (h : ∀ b ∈ bytes, width b = 0) :
    announced bytes = 0 := by
  induction bytes with
  | nil => rfl
  | cons b rest ih =>
      obtain ⟨hb, hrest⟩ := List.forall_mem_cons.mp h
      rw [announced, hb, ih hrest]

theorem width_of_continued {lead : UInt8} {more : List UInt8} (h : Continued (lead :: more)) :
    ∀ b ∈ more, width b = 0 := by
  intro b hb
  obtain ⟨earlier, later, rfl⟩ := List.append_of_mem hb
  have hpre : lead :: earlier ++ [b] <+: lead :: (earlier ++ b :: later) := ⟨later, by simp⟩
  exact width_of_follows (h _ b (List.cons_ne_nil lead earlier) hpre)

/-- The beginning of a character has one lead, and this announces all its bytes. -/
theorem leads_of_begins {lead : UInt8} {more : List UInt8} (h : Begins (lead :: more)) :
    leads (lead :: more) = 1 ∧ announced (lead :: more) = width lead := by
  obtain ⟨hcontinued, hle⟩ := begins_cons.mp h
  have hlead : width lead ≠ 0 := by
    rw [List.length_cons] at hle
    omega
  have hmore := width_of_continued hcontinued
  constructor
  · have hnone : leads more = 0 := by
      apply List.countP_eq_zero.mpr
      intro b hb
      simp [hmore b hb]
    rw [leads, List.countP_cons_of_pos (by simpa using hlead), ← leads, hnone]
  · rw [announced, announced_eq_zero hmore, Nat.add_zero]

theorem leads_encoding (c : Char) :
    leads (encoding c) = 1 ∧ announced (encoding c) = (encoding c).length := by
  obtain ⟨lead, more, hc, hspells⟩ := encoding_spells c
  rw [hc, ← hspells.width]
  exact leads_of_begins ⟨c, hc ▸ List.prefix_refl _⟩

/-- **A text** has as many leads as characters, and as many bytes as they announce. -/
theorem leads_text (text : List Char) :
    leads (text.flatMap encoding) = text.length ∧
      announced (text.flatMap encoding) = (text.flatMap encoding).length := by
  induction text with
  | nil => exact ⟨rfl, rfl⟩
  | cons c text ih =>
      obtain ⟨hleads, hannounced⟩ := ih
      obtain ⟨hlead, hlength⟩ := leads_encoding c
      rw [List.flatMap_cons, leads_append, announced_append, List.length_append, List.length_cons]
      omega

/-! ## What is left over -/

theorem length_of_decodes {bytes : List UInt8} {text : List Char} (h : Decodes bytes text) :
    bytes.length + leads bytes ≤ announced bytes + text.length := by
  induction h with
  | done => exact Nat.le_refl 0
  | written c _ ih =>
      obtain ⟨hlead, hlength⟩ := leads_encoding c
      rw [leads_append, announced_append, List.length_append, List.length_cons]
      omega
  | replaced hbroken _ ih =>
      rw [leads_append, announced_append, List.length_append, List.length_cons]
      -- A part without a lead is a single byte, and it is read all the same.
      rcases hbroken.start with ⟨hne, hbegins⟩ | ⟨b, rfl⟩
      · obtain ⟨lead, more, rfl⟩ := List.exists_cons_of_ne_nil hne
        obtain ⟨hlead, hlength⟩ := leads_of_begins hbegins
        have hle := (begins_cons.mp hbegins).2
        omega
      · by_cases hzero : width b = 0
        · have hlead : leads [b] = 0 := by simp [leads, hzero]
          rw [List.length_singleton]
          omega
        · have hlead : leads [b] ≤ 1 := List.countP_le_length
          have hlength : announced [b] = width b := by simp [announced]
          rw [List.length_singleton]
          omega

/-- At least one character is read for each lead and for each byte that is not announced. -/
theorem length_lossy (bytes : List UInt8) :
    bytes.length + leads bytes ≤ announced bytes + (lossy bytes).length :=
  length_of_decodes (decodes_iff.mpr rfl)

section BrokenOff

variable {bytes : List UInt8} {b : UInt8}

/-- **A character that is broken off** by another one is replaced. -/
theorem lossy_broken_off (hheld : (feed [] bytes).1 ≠ []) (hb : Begins [b])
    (rest : List UInt8) :
    lossy (bytes ++ b :: rest) = (feed [] bytes).2 ++ replacement :: lossy (b :: rest) := by
  obtain ⟨-, -, -, hincomplete⟩ := feed_split bytes
  calc lossy (bytes ++ b :: rest)
      = ((feed [] bytes).2 ++ (feed (feed [] bytes).1 (b :: rest)).2) ++
          flush (feed (feed [] bytes).1 (b :: rest)).1 := by
        rw [lossy, feed_append]
    _ = ((feed [] bytes).2 ++ replacement :: (feed [] (b :: rest)).2) ++
          flush (feed [] (b :: rest)).1 := by
        rw [feed_broken_off hincomplete hheld hb]
    _ = (feed [] bytes).2 ++ replacement :: lossy (b :: rest) := by
        rw [List.append_assoc]
        rfl

/-- A byte of it is left over then, and so there are more characters than leads. -/
theorem length_lossy_broken_off (hheld : (feed [] bytes).1 ≠ []) (hb : Begins [b])
    (rest : List UInt8) :
    (bytes ++ b :: rest).length + leads (bytes ++ b :: rest) <
      announced (bytes ++ b :: rest) + (lossy (bytes ++ b :: rest)).length := by
  rw [lossy_broken_off hheld hb]
  obtain ⟨whole, hbytes, htext, hincomplete⟩ := feed_split bytes
  rw [htext]
  obtain ⟨lead, more, hheld⟩ := List.exists_cons_of_ne_nil hheld
  rw [hheld] at hbytes hincomplete
  obtain ⟨hcontinued, hlt⟩ := incomplete_cons.mp hincomplete
  have hbegins : Begins (lead :: more) := begins_of_continued hcontinued (Nat.le_of_lt hlt)
  obtain ⟨hlead, hannounced⟩ := leads_of_begins hbegins
  have hwhole := length_lossy whole
  have hrest := length_lossy (b :: rest)
  rw [hbytes]
  simp only [List.length_append, leads_append, announced_append, List.length_cons] at hlt hrest ⊢
  omega

end BrokenOff

end Dockboard.Text.Utf8
