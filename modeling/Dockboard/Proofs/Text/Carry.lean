import Dockboard.Proofs.Text.Characters
import Mathlib.Logic.Function.Iterate

set_option autoImplicit false

/-! # Decoding with a buffer

A decoder need not look at bytes one by one. This one has a buffer, and each call adds a piece of a
stream to it and goes round: it checks the buffer, decodes what comes before the first fault, and
drops that and the fault.

    check      the first fault of some bytes, if there is one
    pass       one round of a call
    Calls      calls one after the other, each of which is over after some rounds
    drain      the end of the stream

What `check` has to find is told by characters (`Reports`), and it does (`check_reports`). A fault
that more bytes could mend ends the call and is kept; any other is replaced, and the call goes on
with fewer bytes. So every call is over at some time, and then the decoder has read and keeps what
the machine over single bytes has read and holds back (`rounds_eq`).
-/

namespace Dockboard.Text.Utf8

/-! ## Faults -/

/-- Where bytes stop writing characters. -/
structure Fault where
  /-- How many bytes come before it. -/
  start : Nat
  /-- How many bytes are to be replaced; none if the bytes end inside a character. -/
  length? : Option Nat
  deriving DecidableEq, Repr

/-- The first fault of bytes behind the beginning of a character that stands at `start`. -/
def checkFrom (start : Nat) : List UInt8 → List UInt8 → Option Fault
  | [], [] => none
  | _ :: _, [] => some ⟨start, none⟩
  | [], b :: rest =>
      if width b = 0 then some ⟨start, some 1⟩
      else if width b = 1 then checkFrom (start + 1) [] rest
      else checkFrom start [b] rest
  | lead :: more, b :: rest =>
      if follows (lead :: more) b then
        if (lead :: more).length + 1 = width lead then checkFrom (start + width lead) [] rest
        else checkFrom start (lead :: more ++ [b]) rest
      else some ⟨start, some (lead :: more).length⟩

/-- The first fault of some bytes. -/
def check (bytes : List UInt8) : Option Fault := checkFrom 0 [] bytes

/-- What is to be found in some bytes: there is no fault in a text; an incomplete character at their
end is one, of no length; and so is what has to be replaced, unless more bytes could mend it. -/
inductive Reports : List UInt8 → Option Fault → Prop where
  | sound (text : List Char) : Reports (text.flatMap encoding) none
  | cutOff (text : List Char) {held : List UInt8} (hne : held ≠ []) (hheld : Incomplete held) :
      Reports (text.flatMap encoding ++ held) (some ⟨(text.flatMap encoding).length, none⟩)
  | broken (text : List Char) {part rest : List UInt8} (hbroken : Broken part rest)
      (hnot : ¬ Incomplete (part ++ rest)) :
      Reports (text.flatMap encoding ++ (part ++ rest))
        (some ⟨(text.flatMap encoding).length, some part.length⟩)

/-- An incomplete character is not behind a whole one. -/
theorem not_prefix_of_incomplete {held : List UInt8} (h : Incomplete held) (c : Char) :
    ¬ encoding c <+: held := by
  intro hpre
  obtain ⟨d, hd, hne⟩ := h
  obtain ⟨lead, more, hc, hspells⟩ := encoding_spells c
  rw [hc] at hpre
  have hlen := length_encoding (hpre.trans hd)
  rw [hspells.width] at hlen
  exact hne (hd.eq_of_length (Nat.le_antisymm hd.length_le (hlen ▸ hpre.length_le)))

/-- What the next byte neither completes nor continues is to be replaced. -/
theorem broken_of_incomplete {held : List UInt8} {b : UInt8} (hheld : Incomplete held)
    (hne : held ≠ []) (h : ¬ Begins (held ++ [b])) (rest : List UInt8) :
    Broken held (b :: rest) := by
  have hlongest : ∀ longer, longer <+: held ++ b :: rest → Begins longer →
      longer.length ≤ held.length := by
    rintro longer hpre ⟨c, hc⟩
    refine Nat.le_of_not_lt fun hlt => h ⟨c, ?_⟩
    have hmore : held ++ [b] <+: longer :=
      List.prefix_of_prefix_length_le ⟨rest, by simp⟩ hpre (by simpa using Nat.succ_le_of_lt hlt)
    exact hmore.trans hc
  constructor
  · intro c hc
    have hle := hlongest _ hc ⟨c, List.prefix_refl _⟩
    exact not_prefix_of_incomplete hheld c
      (List.prefix_of_prefix_length_le hc (List.prefix_append held _) hle)
  · obtain ⟨c, hpre, -⟩ := hheld
    exact Or.inl ⟨hne, c, hpre⟩
  · exact hlongest

/-- A byte that begins no character is to be replaced. -/
theorem broken_of_not_begins {b : UInt8} (h : ¬ Begins [b]) (rest : List UInt8) :
    Broken [b] rest := by
  have hshort (bytes : List UInt8) (hpre : bytes <+: b :: rest) (hbegins : Begins bytes) :
      bytes = [] := by
    rcases List.prefix_cons_iff.mp hpre with hnil | ⟨more, rfl, -⟩
    · exact hnil
    · obtain ⟨c, hc⟩ := hbegins
      exact absurd ⟨c, (List.prefix_append [b] more).trans hc⟩ h
  constructor
  · exact fun c hc => encoding_ne_nil c (hshort _ hc ⟨c, List.prefix_refl _⟩)
  · exact Or.inr ⟨b, rfl⟩
  · intro longer hpre hbegins
    rw [hshort longer hpre hbegins]
    exact Nat.zero_le _

theorem not_incomplete_append {bytes : List UInt8} (h : ¬ Begins bytes) (rest : List UInt8) :
    ¬ Incomplete (bytes ++ rest) := by
  rintro ⟨c, hpre, -⟩
  exact h ⟨c, (List.prefix_append bytes rest).trans hpre⟩

/-- The check goes on with a character at a time. -/
theorem checkFrom_reports (text : List Char) {held : List UInt8} (hheld : Incomplete held)
    (rest : List UInt8) :
    Reports (text.flatMap encoding ++ (held ++ rest))
      (checkFrom (text.flatMap encoding).length held rest) := by
  induction rest generalizing text held with
  | nil =>
      rw [List.append_nil]
      cases held with
      | nil =>
          rw [List.append_nil]
          exact .sound text
      | cons lead more => exact .cutOff text (List.cons_ne_nil lead more) hheld
  | cons b rest ih =>
      -- Behind a whole character the check begins anew, with one more character before it.
      have hwhole {bytes : List UInt8} {c : Char} (h : encoding c = bytes) :
          Reports (text.flatMap encoding ++ (bytes ++ rest))
            (checkFrom ((text.flatMap encoding).length + bytes.length) [] rest) := by
        have hnext := ih (text ++ [c]) incomplete_nil
        simpa [h] using hnext
      have hsplit : held ++ b :: rest = (held ++ [b]) ++ rest := by simp
      cases held with
      | nil =>
          unfold checkFrom
          rcases next_of_nil b with ⟨h0, hnot⟩ | ⟨h1, hchar⟩ | ⟨hlt, hnext⟩
          · rw [if_pos h0]
            exact .broken text (broken_of_not_begins hnot rest) (not_incomplete_append hnot rest)
          · rw [if_neg (by omega), if_pos h1]
            exact hwhole hchar
          · rw [if_neg (by omega), if_neg (by omega)]
            exact ih text hnext
      | cons lead more =>
          unfold checkFrom
          rcases next_of_cons hheld b with ⟨hb, hnot⟩ | ⟨hb, hlen, hchar⟩ | ⟨hb, hlen, hnext⟩
          · rw [hb, if_neg Bool.false_ne_true]
            refine .broken text
              (broken_of_incomplete hheld (List.cons_ne_nil lead more) hnot rest) ?_
            rw [hsplit]
            exact not_incomplete_append hnot rest
          · rw [if_pos hb, if_pos hlen, hsplit, ← hlen]
            have hnext := hwhole hchar
            rwa [List.length_append, List.length_singleton] at hnext
          · rw [if_pos hb, if_neg hlen, hsplit]
            exact ih text hnext

/-- **Checking** finds the first fault. -/
theorem check_reports (bytes : List UInt8) : Reports bytes (check bytes) :=
  checkFrom_reports [] incomplete_nil bytes

/-! ## Rounds -/

/-- Where a call stands: it goes on with what is in the buffer, or it is over and some bytes are
kept; and what it has read so far. -/
inductive Stage where
  | going (buffer : List UInt8) (text : List Char)
  | over (held : List UInt8) (text : List Char)

/-- One round of a call. -/
def pass : Stage → Stage
  | .over held text => .over held text
  | .going buffer text =>
      match check buffer with
      | none => .over [] (text ++ lossy buffer)
      | some ⟨start, none⟩ => .over (buffer.drop start) (text ++ lossy (buffer.take start))
      | some ⟨start, some length⟩ =>
          .going (buffer.drop (start + length))
            (text ++ lossy (buffer.take start) ++ [replacement])

/-- **A round** ends the call with what the machine has read and holds back, or leaves fewer bytes
in the buffer and has read what the machine has read before them. -/
theorem pass_going (buffer : List UInt8) (text : List Char) :
    pass (.going buffer text) = .over (feed [] buffer).1 (text ++ (feed [] buffer).2) ∨
    ∃ rest now, rest.length < buffer.length ∧
      pass (.going buffer text) = .going rest (text ++ now) ∧
      feed [] buffer = ((feed [] rest).1, now ++ (feed [] rest).2) := by
  have hreports := check_reports buffer
  generalize hfault : check buffer = fault at hreports
  cases hreports with
  | sound read =>
      refine Or.inl ?_
      simp only [pass, hfault, lossy_text, feed_text]
  | cutOff read hne hheld =>
      refine Or.inl ?_
      simp only [pass, hfault, List.drop_left, List.take_left, lossy_text, feed_append, feed_text,
        feed_incomplete hheld, List.append_nil]
  | @broken read part rest hbroken hnot =>
      have hpos : 0 < part.length := by
        rcases hbroken.start with ⟨hne, -⟩ | ⟨b, rfl⟩
        · exact List.length_pos_iff.mpr hne
        · exact Nat.one_pos
      refine Or.inr ⟨rest, read ++ [replacement], ?_, ?_, ?_⟩
      · simp only [List.length_append]
        omega
      · simp only [pass, hfault, List.take_left, lossy_text, ← List.drop_drop, List.drop_left,
          List.append_assoc]
      · rw [feed_append, feed_text, feed_broken hbroken hnot]
        simp

/-- **Every call is over** after no more rounds than there are bytes in the buffer, and one. -/
theorem rounds_eq (buffer : List UInt8) (text : List Char) :
    ∃ n ≤ buffer.length + 1,
      pass^[n] (.going buffer text) = .over (feed [] buffer).1 (text ++ (feed [] buffer).2) := by
  induction hlen : buffer.length using Nat.strongRecOn generalizing buffer text with
  | ind length ih =>
      subst hlen
      rcases pass_going buffer text with hover | ⟨rest, now, hshorter, hgoing, hfeed⟩
      · exact ⟨1, by omega, hover⟩
      · obtain ⟨n, hn, hrest⟩ := ih rest.length hshorter rest (text ++ now) rfl
        refine ⟨n + 1, by omega, ?_⟩
        rw [Function.iterate_succ_apply, hgoing, hrest, hfeed, List.append_assoc]

/-! ## Calls -/

/-- A call with a piece: it is over after some rounds, not more than there are bytes and one. Then
it has read `text`, and `held'` are the bytes that are kept. -/
def CallEnds (held piece held' : List UInt8) (text : List Char) : Prop :=
  ∃ n ≤ (held ++ piece).length + 1, pass^[n] (.going (held ++ piece) []) = .over held' text

/-- Calls one after the other, from the bytes that are kept before the first one to those that are
kept behind the last one. -/
inductive Calls : List UInt8 → List (List UInt8) → List (List Char) → List UInt8 → Prop where
  | none (held : List UInt8) : Calls held [] [] held
  | call {held piece held' held'' : List UInt8} {text : List Char} {pieces : List (List UInt8)}
      {texts : List (List Char)} (hcall : CallEnds held piece held' text)
      (hlater : Calls held' pieces texts held'') :
      Calls held (piece :: pieces) (text :: texts) held''

/-- The end of the stream: what is kept is decoded and forgotten. -/
def drain (held : List UInt8) : List UInt8 × List Char := ([], lossy held)

/-- Pieces as the machine over single bytes reads them: what is held back behind the last one, and
the text of each. -/
def feedPieces (held : List UInt8) : List (List UInt8) → List UInt8 × List (List Char)
  | [] => (held, [])
  | piece :: pieces =>
      let (held', text) := feed held piece
      let (held'', texts) := feedPieces held' pieces
      (held'', text :: texts)

theorem pass_over (n : Nat) (held : List UInt8) (text : List Char) :
    pass^[n] (.over held text) = .over held text :=
  Function.iterate_fixed rfl n

/-- A call that is over stays so, and there is one way only in which it can end. -/
theorem over_unique {stage : Stage} {m n : Nat} {held held' : List UInt8} {text text' : List Char}
    (h : pass^[m] stage = .over held text) (h' : pass^[n] stage = .over held' text') :
    held = held' ∧ text = text' := by
  have hlater : pass^[n + m] stage = .over held text := by
    rw [Function.iterate_add_apply, h, pass_over]
  rw [Nat.add_comm, Function.iterate_add_apply, h', pass_over] at hlater
  cases hlater
  exact ⟨rfl, rfl⟩

/-- **A call** reads what the machine reads. -/
theorem callEnds_iff {held : List UInt8} (hheld : Incomplete held) {piece held' : List UInt8}
    {text : List Char} : CallEnds held piece held' text ↔ feed held piece = (held', text) := by
  have hfeed : feed [] (held ++ piece) = feed held piece := by
    rw [feed_append, feed_incomplete hheld]
    rfl
  obtain ⟨n, hn, hover⟩ := rounds_eq (held ++ piece) []
  rw [hfeed] at hover
  constructor
  · rintro ⟨m, -, hend⟩
    obtain ⟨rfl, rfl⟩ := over_unique hover hend
    rfl
  · intro heq
    rw [heq] at hover
    exact ⟨n, hn, hover⟩

theorem feed_keeps_incomplete {held : List UInt8} (hheld : Incomplete held) (piece : List UInt8) :
    Incomplete (feed held piece).1 := by
  obtain ⟨-, -, -, hkept⟩ := feed_split (held ++ piece)
  rw [feed_append, feed_incomplete hheld] at hkept
  exact hkept

theorem calls_iff {held : List UInt8} (hheld : Incomplete held) {pieces : List (List UInt8)}
    {texts : List (List Char)} {held' : List UInt8} :
    Calls held pieces texts held' ↔ feedPieces held pieces = (held', texts) := by
  induction pieces generalizing held texts with
  | nil =>
      constructor
      · rintro ⟨⟩
        rfl
      · rintro ⟨⟩
        exact .none _
  | cons piece pieces ih =>
      have hkept := feed_keeps_incomplete hheld piece
      constructor
      · rintro (_ | ⟨hcall, hlater⟩)
        have hfeed := (callEnds_iff hheld).mp hcall
        rw [hfeed] at hkept
        simp only [feedPieces, hfeed, (ih hkept).mp hlater]
      · rintro ⟨⟩
        exact .call ((callEnds_iff hheld).mpr rfl) ((ih hkept).mpr rfl)

/-- How the bytes are cut makes no difference to the machine. -/
theorem feedPieces_flatten (held : List UInt8) (pieces : List (List UInt8)) :
    ((feedPieces held pieces).1, (feedPieces held pieces).2.flatten) =
      feed held pieces.flatten := by
  induction pieces generalizing held with
  | nil => rfl
  | cons piece pieces ih =>
      have hrest := ih (feed held piece).1
      rw [List.flatten_cons, feed_append, ← hrest]
      rfl

/-- What is held back is short, and lacks something to be a character of several bytes. -/
theorem Incomplete.of_several {held : List UInt8} (h : Incomplete held) :
    held.length ≤ 3 ∧ ∃ c, 2 ≤ (encoding c).length ∧ held <+: encoding c ∧ held ≠ encoding c := by
  cases held with
  | nil => exact ⟨by decide, 'é', by decide, List.nil_prefix, by decide⟩
  | cons lead more =>
      have hlt := (incomplete_cons.mp h).2
      have hwidth := width_le lead
      obtain ⟨c, hpre, hne⟩ := h
      have hlen := length_encoding hpre
      refine ⟨by omega, c, ?_, hpre, hne⟩
      rw [hlen]
      exact Nat.lt_of_le_of_lt (Nat.succ_le_succ (Nat.zero_le more.length)) hlt

/-- **Pieces of a stream.** However bytes are cut into pieces, every call that decodes one of them
is over after some rounds, and in one way only. What the calls read and what is read at the end is
the text of all the bytes, each maximal part that writes no character being replaced by one
replacement character. What is kept behind a call is no more than three bytes, the beginning of a
character that has more of them; and once it is read nothing is left to be read. -/
theorem calls_lossy (pieces : List (List UInt8)) :
    ∃ texts held,
      (∀ texts' held', Calls [] pieces texts' held' ↔ texts' = texts ∧ held' = held) ∧
      feedPieces [] pieces = (held, texts) ∧
      texts.flatten ++ (drain held).2 = lossy pieces.flatten ∧
      Decodes pieces.flatten (texts.flatten ++ (drain held).2) ∧
      held.length ≤ 3 ∧
      (∃ c, 2 ≤ (encoding c).length ∧ held <+: encoding c ∧ held ≠ encoding c) ∧
      (drain held).2 = flush held ∧ (drain (drain held).1).2 = [] := by
  generalize hpieces : feedPieces [] pieces = kept
  obtain ⟨held, texts⟩ := kept
  have hflat := feedPieces_flatten [] pieces
  rw [hpieces] at hflat
  have hheld : Incomplete held := by
    have hkept := feed_keeps_incomplete incomplete_nil pieces.flatten
    rw [← hflat] at hkept
    exact hkept
  have hflush : (drain held).2 = flush held := lossy_incomplete hheld
  have htext : texts.flatten ++ (drain held).2 = lossy pieces.flatten := by
    rw [hflush, lossy, ← hflat]
  obtain ⟨hlen, hchar⟩ := hheld.of_several
  refine ⟨texts, held, fun texts' held' => ?_, rfl, htext, decodes_iff.mpr htext, hlen, hchar,
    hflush, rfl⟩
  rw [calls_iff incomplete_nil, hpieces, Prod.mk.injEq, and_comm, eq_comm, @eq_comm _ held]

/-- A character cut in two behind a byte that writes none, and an incomplete one at the end. -/
example : feedPieces [] [[0xFF, 0xC3], [0xA9, 0xE2, 0x82]] =
    ([0xE2, 0x82], [[replacement], ['é']]) := by
  decide

end Dockboard.Text.Utf8
