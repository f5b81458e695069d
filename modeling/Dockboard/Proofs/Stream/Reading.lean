import Dockboard.Proofs.Stream.Framing
import Dockboard.Proofs.Text.Utf8
import Dockboard.Stream.LogReader

set_option autoImplicit false

/-! # Reading a log to its end

What the reads of a log yield, one after the other, from a stream that delivers some chunks of bytes
and then ends or fails.

    carried bytes        what the frames in `bytes` carry, as far as it has arrived
    unframed bytes       the same of a stream that may have no frames
    textBytes bytes      the bytes that are text once the stream has ended
    reading seen rest    the reader that has taken the bytes `seen` and has `rest` before it
    Takes reader chunks  the next read takes these chunks, whatever comes behind them
    Reads reader texts   all the reads, of which the first ones yield `texts`

How far a reader is depends on the bytes that it has taken and not on the chunks in which they came
(`next_delivering`). So the texts of its reads add up to what all the chunks together complete
(`reads_chunks`), and behind the chunks there is one more read that meets the end or the failure
(`Yields.last`).
-/

namespace Dockboard.Stream

open Dockboard.Text

namespace Demuxer

/-- What a stream of frames carries: the payload of each frame, as far as it has arrived. -/
def carried (bytes : List UInt8) : List UInt8 :=
  if _h : bytes.length < headerLength then []
  else
    let size := readLength ((bytes.take headerLength).drop 4)
    (bytes.drop headerLength).take size ++ carried (bytes.drop (headerLength + size))
termination_by bytes.length
decreasing_by
  have hpos : 0 < headerLength := by decide
  rw [List.length_drop]
  omega

/-- What a stream carries that may have frames or not. -/
def unframed (bytes : List UInt8) : List UInt8 :=
  if beginsFrame (bytes.take headerLength) then carried bytes else bytes

/-- Too few bytes have arrived to tell whether there are frames. -/
def Undecided (bytes : List UInt8) : Prop :=
  bytes.length < headerLength ∧ beginsFrame bytes = true

instance (bytes : List UInt8) : Decidable (Undecided bytes) := inferInstanceAs (Decidable (_ ∧ _))

theorem carried_of_lt {bytes : List UInt8} (h : bytes.length < headerLength) :
    carried bytes = [] := by
  rw [carried, dif_pos h]

theorem carried_append {header rest : List UInt8} (h : header.length = headerLength) :
    carried (header ++ rest) =
      rest.take (readLength (header.drop 4)) ++
        carried (rest.drop (readLength (header.drop 4))) := by
  have hlong : ¬ (header ++ rest).length < headerLength := by
    rw [List.length_append]
    omega
  rw [carried, dif_neg hlong]
  simp only [← h, List.take_left, List.drop_left, ← List.drop_drop]

/-- Frames carry their payloads. -/
theorem carried_encodeFrames (frames : List Frame) :
    carried (encodeFrames frames) = frames.flatMap Frame.payload := by
  induction frames with
  | nil => exact carried_of_lt (by decide)
  | cons f frames ih =>
      rw [encodeFrames_cons, carried_append (Frame.length_header f), readLength_header,
        List.take_left, List.drop_left, ih, List.flatMap_cons]

theorem unframed_encodeFrames (frames : List Frame) :
    unframed (encodeFrames frames) = frames.flatMap Frame.payload := by
  have hpre := List.take_prefix headerLength (encodeFrames frames)
  have hle : ((encodeFrames frames).take headerLength).length ≤ 8 := List.length_take_le _ _
  rw [unframed, if_pos (beginsFrame_of_start hpre hle), carried_encodeFrames]

theorem pendingRaw_awaiting (n : Nat) : (awaiting n).pendingRaw = [] := by
  unfold awaiting
  split <;> rfl

/-- A whole header and no more than its payload. -/
theorem feed_within {first rest : List UInt8} (hfirst : first.length = headerLength)
    (hle : rest.length ≤ readLength (first.drop 4)) :
    (header []).feed (first ++ rest) =
      (awaiting (readLength (first.drop 4) - rest.length), rest) := by
  have hne : first ≠ [] := List.ne_nil_of_length_pos (by rw [hfirst]; decide)
  have hheader : (header []).feed first = (awaiting (readLength (first.drop 4)), []) := by
    rw [feed_header [] hne (by simp [hfirst, headerLength]), List.nil_append, afterHeader,
      if_neg (by omega)]
  rw [feed_append, hheader, List.nil_append, feed_awaiting hle]

/-- A whole header, its whole payload, and what follows them. -/
theorem feed_beyond {first payload rest : List UInt8} (hfirst : first.length = headerLength)
    (hpayload : payload.length = readLength (first.drop 4)) :
    (header []).feed (first ++ (payload ++ rest)) =
      (((header []).feed rest).1, payload ++ ((header []).feed rest).2) := by
  have hwhole : (header []).feed (first ++ payload) = (header [], payload) := by
    rw [feed_within hfirst (Nat.le_of_eq hpayload), hpayload, Nat.sub_self]
    rfl
  rw [← List.append_assoc, feed_append, hwhole]

/-- A stream of frames, read by a decoder that knows that there are frames. -/
theorem feed_framed (bytes : List UInt8) :
    ((header []).feed bytes).2 = carried bytes ∧ ((header []).feed bytes).1.pendingRaw = [] := by
  induction hlen : bytes.length using Nat.strongRecOn generalizing bytes with
  | ind n ih =>
      subst hlen
      by_cases hlt : bytes.length < headerLength
      · rw [carried_of_lt hlt]
        by_cases hnil : bytes = []
        · subst hnil
          exact ⟨rfl, rfl⟩
        · have hle : ([] : List UInt8).length + bytes.length ≤ 8 := by
            rw [List.length_nil, Nat.zero_add]
            exact Nat.le_of_lt hlt
          rw [feed_header [] hnil hle, List.nil_append, afterHeader, if_pos hlt]
          exact ⟨rfl, rfl⟩
      -- A whole header, and then either no more than its payload or all of it.
      obtain ⟨first, rest, rfl, hfirst⟩ :
          ∃ first rest, bytes = first ++ rest ∧ first.length = headerLength :=
        ⟨bytes.take headerLength, bytes.drop headerLength, (List.take_append_drop _ _).symm,
          List.length_take_of_le (Nat.le_of_not_lt hlt)⟩
      rw [carried_append hfirst]
      by_cases hle : rest.length ≤ readLength (first.drop 4)
      · rw [feed_within hfirst hle, List.take_of_length_le hle, List.drop_of_length_le hle,
          carried_of_lt (by decide), List.append_nil]
        exact ⟨rfl, pendingRaw_awaiting _⟩
      · obtain ⟨payload, more, rfl, hpayload⟩ : ∃ payload more,
            rest = payload ++ more ∧ payload.length = readLength (first.drop 4) :=
          ⟨_, _, (List.take_append_drop _ rest).symm,
            List.length_take_of_le (Nat.le_of_not_le hle)⟩
        have hshorter : more.length < (first ++ (payload ++ more)).length := by
          have : 0 < headerLength := by decide
          rw [List.length_append, List.length_append, hfirst]
          omega
        obtain ⟨hout, hpending⟩ := ih _ hshorter more rfl
        rw [feed_beyond hfirst hpayload, ← hpayload, List.take_left, List.drop_left, ← hout]
        exact ⟨rfl, hpending⟩

theorem feed_plain (bytes : List UInt8) : plain.feed bytes = (plain, bytes) := by
  induction bytes with
  | nil => rfl
  | cons b rest ih => rw [feed_cons, step, ih]; rfl

theorem beginsFrame_take {bytes : List UInt8} (h : beginsFrame bytes = true) (n : Nat) :
    beginsFrame (bytes.take n) = true := by
  rw [← List.take_append_drop n bytes] at h
  exact beginsFrame_of_append h

theorem feed_not_framed {seen bytes : List UInt8} (hseen : beginsFrame seen = true)
    (h : beginsFrame ((seen ++ bytes).take headerLength) = false) :
    (undecided seen).feed bytes = (plain, seen ++ bytes) := by
  -- The induction goes up to the first byte with which no frame can begin.
  induction bytes generalizing seen with
  | nil =>
      rw [List.append_nil, beginsFrame_take hseen] at h
      cases h
  | cons b bytes ih =>
      have hsplit : seen ++ b :: bytes = (seen ++ [b]) ++ bytes := by simp
      rw [hsplit] at h ⊢
      rw [feed_cons]
      cases hnext : beginsFrame (seen ++ [b]) with
      | false =>
          have hstep : (undecided seen).step b = (plain, seen ++ [b]) := by
            rw [step, hnext]
            rfl
          rw [hstep, feed_plain]
      | true =>
          -- It comes before the header is whole, since the first eight bytes begin none.
          have hlt : (seen ++ [b]).length < headerLength := by
            by_contra hge
            rw [List.take_append_of_le_length (by omega), beginsFrame_take hnext] at h
            cases h
          rw [step_undecided hnext, if_pos hlt, ih hnext h]
          rfl

/-- **Any stream.** What the decoder yields, and what it holds back. -/
theorem feed_new_any (bytes : List UInt8) :
    (new.feed bytes).2 = unframed bytes ∧
      (new.feed bytes).1.pendingRaw = if Undecided bytes then bytes else [] := by
  unfold unframed
  cases hbegins : beginsFrame (bytes.take headerLength) with
  | false =>
      have hnot : ¬ Undecided bytes := by
        rintro ⟨-, hall⟩
        rw [beginsFrame_take hall] at hbegins
        cases hbegins
      have hplain : (undecided []).feed bytes = (plain, bytes) :=
        feed_not_framed (by rfl) hbegins
      rw [new, hplain, if_neg hnot]
      exact ⟨rfl, rfl⟩
  | true =>
      by_cases hlt : bytes.length < headerLength
      · rw [List.take_of_length_le (Nat.le_of_lt hlt)] at hbegins
        have hundecided : Undecided bytes := ⟨hlt, hbegins⟩
        rw [feed_short hbegins hlt, if_pos hundecided, if_pos rfl, carried_of_lt hlt]
        exact ⟨rfl, rfl⟩
      · have hnot : ¬ Undecided bytes := fun h => hlt h.1
        obtain ⟨hout, hpending⟩ := feed_framed bytes
        rw [feed_begun hbegins (Nat.le_of_not_lt hlt), if_neg hnot, if_pos rfl]
        exact ⟨hout, hpending⟩

end Demuxer

open Demuxer in
/-- The bytes of which a log is the text once it has ended: what it carries, or all of them while
they are too few to tell whether there are frames. -/
def textBytes (bytes : List UInt8) : List UInt8 :=
  if Undecided bytes then bytes else unframed bytes

/-- The stream that delivers some chunks and then the rest. -/
def delivering (chunks : List (List UInt8)) (rest : Feed (List UInt8)) : Feed (List UInt8) :=
  { rest with items := chunks.map .ok ++ rest.items }

namespace LogReader

/-! ## Reads -/

/-- The reader after some reads. -/
def after (reader : LogReader) : Nat → LogReader
  | 0 => reader
  | n + 1 => after reader.next.2 n

/-- What a read yields, the first one having the number 0. -/
def read (reader : LogReader) (n : Nat) : LogRead := (reader.after n).next.1

/-- The next read takes just these chunks off the stream, whatever comes behind them. -/
def Takes (reader : LogReader) (chunks : List (List UInt8)) : Prop :=
  reader.source = delivering chunks reader.next.2.source ∧
    ∀ rest : Feed (List UInt8), next { reader with source := delivering chunks rest } =
      (reader.next.1, { reader.next.2 with source := rest })

/-- All the reads of a log: they yield `texts`, then the failure, if there is one, and then for ever
that the log has ended. Those before the `last` one take chunks only, and those behind it nothing:
it alone meets the end or the failure of the stream. -/
structure Reads (reader : LogReader) (texts : List (List Char)) (failure : Option String)
    (last : Nat) : Prop where
  nonempty : ∀ text ∈ texts, text ≠ []
  yields : ∀ n, reader.read n =
    ((texts.map LogRead.text ++ (failure.map LogRead.failed).toList)[n]?).getD .ended
  last_le : last ≤ texts.length
  before : ∀ n < last, ∃ chunks, (reader.after n).Takes chunks
  behind : ∀ n, last < n → (reader.after n).Takes []

theorem next_of_finished {reader : LogReader} (h : reader.finished = true) :
    reader.next = (.ended, reader) := by
  rw [next, if_pos h]

theorem after_of_finished {reader : LogReader} (h : reader.finished = true) (n : Nat) :
    reader.after n = reader := by
  induction n with
  | zero => rfl
  | succ n ih => rw [after, next_of_finished h, ih]

/-- A log that has ended is not looked at again. -/
theorem takes_of_finished {reader : LogReader} (h : reader.finished = true) : reader.Takes [] := by
  rw [Takes, next_of_finished h]
  exact ⟨rfl, fun rest => next_of_finished h⟩

theorem after_succ (reader : LogReader) (n : Nat) :
    reader.after (n + 1) = (reader.after n).next.2 := by
  induction n generalizing reader with
  | zero => rfl
  | succ n ih => exact ih reader.next.2

theorem after_add (reader : LogReader) (m n : Nat) :
    reader.after (m + n) = (reader.after m).after n := by
  induction n with
  | zero => rfl
  | succ n ih => rw [← Nat.add_assoc, after_succ, after_succ, ih]

/-- Readers that agree on their next read agree on all later ones. -/
theorem next_after_congr {reader reader' : LogReader} (h : reader.next = reader'.next) (n : Nat) :
    (reader.after n).next = (reader'.after n).next := by
  cases n with
  | zero => exact h
  | succ n => rw [after, after, h]

/-! ## Chunks -/

/-- The reader that has taken the bytes `seen` and goes on with `source`. -/
def reading (seen : List UInt8) (source : Feed (List UInt8)) : LogReader :=
  ⟨source, (Demuxer.new.feed seen).1, (Utf8.feed [] (Demuxer.new.feed seen).2).1, false⟩

theorem reading_nil (source : Feed (List UInt8)) : reading [] source = { source } := rfl

/-- The text that the bytes `seen` complete. -/
def completed (seen : List UInt8) : List Char := (Utf8.feed [] (Demuxer.new.feed seen).2).2

/-- **One chunk.** It is added to the bytes that have been taken, and if it completes some text
this is what the read yields; else the same read goes on. -/
theorem next_delivering (seen chunk : List UInt8) :
    ∃ text, completed (seen ++ chunk) = completed seen ++ text ∧
      ∀ rest, (reading seen (delivering [chunk] rest)).next =
        if text = [] then (reading (seen ++ chunk) rest).next
        else (.text text, reading (seen ++ chunk) rest) := by
  refine ⟨(Utf8.feed (Utf8.feed [] (Demuxer.new.feed seen).2).1
    ((Demuxer.new.feed seen).1.feed chunk).2).2, ?_, fun rest => ?_⟩
  · rw [completed, Demuxer.feed_append, Utf8.feed_append]
    rfl
  · have htaken : reading (seen ++ chunk) rest =
        ⟨rest, ((Demuxer.new.feed seen).1.feed chunk).1,
          (Utf8.feed (Utf8.feed [] (Demuxer.new.feed seen).2).1
            ((Demuxer.new.feed seen).1.feed chunk).2).1, false⟩ := by
      rw [reading, Demuxer.feed_append, Utf8.feed_append]
    rw [htaken]
    show readFrom rest.endless _ _ (.ok chunk :: rest.items) = _
    simp only [readFrom, List.isEmpty_iff]
    rfl

/-- The first reads take chunks only and yield `texts`, none of them empty; the read behind them is
that of the reader `rest`. -/
structure Yields (reader : LogReader) (texts : List (List Char)) (rest : LogReader) : Prop where
  nonempty : ∀ text ∈ texts, text ≠ []
  reads : ∀ n text, texts[n]? = some text →
    reader.read n = .text text ∧ ∃ taken, (reader.after n).Takes taken
  next_eq : (reader.after texts.length).next = rest.next

section Step

variable {seen seen' chunk : List UInt8} {chunks : List (List UInt8)} {source : Feed (List UInt8)}
  {texts : List (List Char)} {rest : LogReader}

/-- A read that passes over a chunk takes it together with those that it takes after it. -/
theorem takes_cons {taken : List (List UInt8)}
    (hnext : ∀ later, (reading seen (delivering [chunk] later)).next = (reading seen' later).next)
    (h : (reading seen' (delivering chunks source)).Takes taken) :
    (reading seen (delivering (chunk :: chunks) source)).Takes (chunk :: taken) := by
  obtain ⟨hsource, hlater⟩ := h
  have hfirst : (reading seen (delivering (chunk :: chunks) source)).next =
      (reading seen' (delivering chunks source)).next := hnext (delivering chunks source)
  rw [Takes, hfirst]
  constructor
  · exact congrArg (delivering [chunk]) hsource
  · intro later
    exact (hnext (delivering taken later)).trans (hlater later)

/-- A chunk that completes nothing: the same read goes on to the next one. -/
theorem Yields.passing
    (hnext : ∀ later, (reading seen (delivering [chunk] later)).next = (reading seen' later).next)
    (h : (reading seen' (delivering chunks source)).Yields texts rest) :
    (reading seen (delivering (chunk :: chunks) source)).Yields texts rest := by
  have hfirst : (reading seen (delivering (chunk :: chunks) source)).next =
      (reading seen' (delivering chunks source)).next := hnext (delivering chunks source)
  refine ⟨h.nonempty, fun n text ht => ?_, (next_after_congr hfirst _).trans h.next_eq⟩
  obtain ⟨hread, taken, htakes⟩ := h.reads n text ht
  refine ⟨(congrArg Prod.fst (next_after_congr hfirst n)).trans hread, ?_⟩
  cases n with
  | zero => exact ⟨chunk :: taken, takes_cons hnext htakes⟩
  | succ n =>
      rw [after, hfirst]
      exact ⟨taken, htakes⟩

/-- A chunk that completes some text is all that the read takes. -/
theorem Yields.cons {text : List Char} (hne : text ≠ [])
    (hnext : ∀ later, (reading seen (delivering [chunk] later)).next =
      (.text text, reading seen' later))
    (h : (reading seen' (delivering chunks source)).Yields texts rest) :
    (reading seen (delivering (chunk :: chunks) source)).Yields (text :: texts) rest := by
  have hfirst : (reading seen (delivering (chunk :: chunks) source)).next =
      (.text text, reading seen' (delivering chunks source)) := hnext (delivering chunks source)
  refine ⟨List.forall_mem_cons.mpr ⟨hne, h.nonempty⟩, fun n t ht => ?_, ?_⟩
  · cases n with
    | zero =>
        cases ht
        refine ⟨congrArg Prod.fst hfirst, [chunk], ?_⟩
        rw [after, Takes, hfirst]
        exact ⟨rfl, hnext⟩
    | succ n =>
        rw [read, after, hfirst]
        exact h.reads n t ht
  · rw [List.length_cons, after, hfirst]
    exact h.next_eq

end Step

/-- **Chunks.** While chunks arrive the reads take them and yield the texts that they complete; the
read behind those is that of a reader that has taken all their bytes. -/
theorem reads_chunks (seen : List UInt8) (chunks : List (List UInt8))
    (source : Feed (List UInt8)) :
    ∃ texts, completed (seen ++ chunks.flatten) = completed seen ++ texts.flatten ∧
      (reading seen (delivering chunks source)).Yields texts
        (reading (seen ++ chunks.flatten) source) := by
  induction chunks generalizing seen with
  | nil =>
      rw [List.flatten_nil, List.append_nil]
      exact ⟨[], (List.append_nil _).symm, by simp, by simp, rfl⟩
  | cons chunk chunks ih =>
      obtain ⟨texts, hflat, hyields⟩ := ih (seen ++ chunk)
      obtain ⟨text, htext, hnext⟩ := next_delivering seen chunk
      rw [List.flatten_cons, ← List.append_assoc, hflat, htext]
      by_cases hempty : text = []
      · simp only [if_pos hempty] at hnext
        refine ⟨texts, ?_, hyields.passing hnext⟩
        rw [hempty, List.append_nil]
      · simp only [if_neg hempty] at hnext
        refine ⟨text :: texts, ?_, hyields.cons hempty hnext⟩
        rw [List.flatten_cons, List.append_assoc]

/-! ## The end -/

/-- What follows once a read meets the end or the failure of the stream. -/
theorem Yields.last {reader rest done : LogReader} {texts : List (List Char)} {answer : LogRead}
    (h : reader.Yields texts rest) (hlast : rest.next = (answer, done))
    (hdone : done.finished = true) :
    (∀ n, reader.read n = ((texts.map LogRead.text ++ [answer])[n]?).getD .ended) ∧
      (∀ n < texts.length, ∃ taken, (reader.after n).Takes taken) ∧
      ∀ n, texts.length < n → (reader.after n).Takes [] := by
  have hanswer : (reader.after texts.length).next = (answer, done) := h.next_eq.trans hlast
  have hafter (n : Nat) (hn : texts.length < n) : reader.after n = done := by
    obtain ⟨k, rfl⟩ := Nat.exists_eq_add_of_lt hn
    rw [Nat.add_right_comm, after_add, after_succ, hanswer, after_of_finished hdone]
  refine ⟨fun n => ?_, fun n hn => ?_, fun n hn => ?_⟩
  · rcases Nat.lt_trichotomy n texts.length with hlt | rfl | hgt
    · have ht : texts[n]? = some texts[n] := List.getElem?_eq_getElem hlt
      rw [(h.reads n _ ht).1, List.getElem?_append_left (by rwa [List.length_map]),
        List.getElem?_map, ht]
      rfl
    · rw [read, hanswer, List.getElem?_append_right (by simp), List.length_map, Nat.sub_self]
      rfl
    · have hlen : (texts.map LogRead.text ++ [answer]).length ≤ n := by
        rw [List.length_append, List.length_map]
        exact hgt
      rw [read, hafter n hgt, next_of_finished hdone, List.getElem?_eq_none hlen]
      rfl
  · exact (h.reads n _ (List.getElem?_eq_getElem hn)).2
  · rw [hafter n hn]
    exact takes_of_finished hdone

/-- The default at the end of a list is what is found there anyway. -/
theorem getD_concat_self {α : Type} (l : List α) (a : α) (n : Nat) :
    ((l ++ [a])[n]?).getD a = (l[n]?).getD a := by
  rcases Nat.lt_trichotomy n l.length with hlt | rfl | hgt
  · rw [List.getElem?_append_left hlt]
  · rw [List.getElem?_concat_length, List.getElem?_eq_none (Nat.le_refl _)]
    rfl
  · rw [List.getElem?_eq_none (Nat.le_of_lt hgt), List.getElem?_eq_none]
    rw [List.length_append]
    exact hgt

/-- A log that fails behind some chunks. -/
theorem reads_failed (chunks : List (List UInt8)) (failure : Failure)
    (more : List (Except Failure (List UInt8))) (endless : Bool) :
    ∃ texts last, texts.flatten = completed chunks.flatten ∧
      Reads { source := delivering chunks ⟨.error failure :: more, endless⟩ } texts
        (some failure.message) last := by
  obtain ⟨texts, hflat, hyields⟩ := reads_chunks [] chunks ⟨.error failure :: more, endless⟩
  obtain ⟨hread, hbefore, hbehind⟩ := hyields.last rfl rfl
  rw [List.nil_append] at hflat
  exact ⟨texts, texts.length, hflat.symm, hyields.nonempty, hread, Nat.le_refl _, hbefore, hbehind⟩

/-- A log that ends behind some chunks: what the decoders hold back is one more text, unless it is
empty. -/
theorem reads_ended (chunks : List (List UInt8)) {tail : List Char}
    (htail : tailText (reading chunks.flatten .empty).demuxer
      (reading chunks.flatten .empty).held = tail) :
    ∃ texts last, texts.flatten = completed chunks.flatten ++ tail ∧
      Reads { source := delivering chunks .empty } texts none last := by
  obtain ⟨texts, hflat, hyields⟩ := reads_chunks [] chunks .empty
  rw [reading_nil] at hyields
  rw [List.nil_append] at hflat hyields
  have hcompleted : completed chunks.flatten = texts.flatten := hflat
  have hend : (reading chunks.flatten .empty).next =
      (if tail.isEmpty then .ended else .text tail,
        ⟨.empty, (reading chunks.flatten .empty).demuxer, [], true⟩) := by
    subst htail
    rfl
  obtain ⟨hread, hbefore, hbehind⟩ := hyields.last hend rfl
  rw [hcompleted]
  -- With some text left the end comes one read later, but it is met by the same read.
  cases tail with
  | nil =>
      refine ⟨texts, texts.length, (List.append_nil _).symm, hyields.nonempty, fun n => ?_,
        Nat.le_refl _, hbefore, hbehind⟩
      rw [hread, Option.map_none, Option.toList_none, List.append_nil]
      exact getD_concat_self _ LogRead.ended n
  | cons c tail =>
      refine ⟨texts ++ [c :: tail], texts.length, by simp, ?_, fun n => ?_, by simp, hbefore,
        hbehind⟩
      · have htail : c :: tail ≠ [] := List.cons_ne_nil c tail
        exact List.forall_mem_append.mpr ⟨hyields.nonempty, List.forall_mem_singleton.mpr htail⟩
      · rw [hread, Option.map_none, Option.toList_none, List.append_nil, List.map_append]
        rfl

/-- The text of a log that has ended is that of the bytes that it carried. -/
theorem completed_tail (bytes : List UInt8) :
    completed bytes ++ tailText (reading bytes .empty).demuxer (reading bytes .empty).held =
      Utf8.lossy (textBytes bytes) := by
  obtain ⟨hout, hpending⟩ := Demuxer.feed_new_any bytes
  have htail : tailText (reading bytes .empty).demuxer (reading bytes .empty).held =
      (Utf8.feed (reading bytes .empty).held (Demuxer.new.feed bytes).1.pendingRaw).2 ++
        Utf8.flush (Utf8.feed (reading bytes .empty).held
          (Demuxer.new.feed bytes).1.pendingRaw).1 := rfl
  rw [htail, hpending, completed, reading, hout, textBytes]
  by_cases hundecided : Demuxer.Undecided bytes
  · -- All the bytes are still held back, and they are read as text now.
    have hnone : Demuxer.unframed bytes = [] := by
      rw [Demuxer.unframed, List.take_of_length_le (Nat.le_of_lt hundecided.1),
        if_pos hundecided.2, Demuxer.carried_of_lt hundecided.1]
    rw [if_pos hundecided, if_pos hundecided, hnone]
    rfl
  · rw [if_neg hundecided, if_neg hundecided]
    rfl

/-- **Logs.** However the bytes of a log are cut into chunks: its reads yield texts, none of them
empty, then the failure, if there is one, and after that only that the log has ended, and the stream
is not looked at again once it has ended or failed. All the texts together are

 - when the stream ends, what is written by the bytes that it carried, or by all its bytes when
   those are too few to tell whether there are frames;
 - when it fails, what is written by the bytes that it has carried up to there, less the incomplete
   character at their end. -/
theorem reads_log (bytes : List UInt8) :
    (∃ text, Utf8.Decodes (textBytes bytes) text ∧
      ∀ chunks : List (List UInt8), chunks.flatten = bytes →
        ∃ texts last, texts.flatten = text ∧
          Reads { source := delivering chunks .empty } texts none last) ∧
    ∃ whole held text, Utf8.Splits (Demuxer.unframed bytes) whole held ∧
      Utf8.Decodes whole text ∧
      ∀ (chunks : List (List UInt8)) (failure : Failure)
        (more : List (Except Failure (List UInt8))) (endless : Bool), chunks.flatten = bytes →
        ∃ texts last, texts.flatten = text ∧
          Reads { source := delivering chunks ⟨.error failure :: more, endless⟩ } texts
            (some failure.message) last := by
  constructor
  · refine ⟨Utf8.lossy (textBytes bytes), Utf8.decodes_iff.mpr rfl, ?_⟩
    rintro chunks rfl
    rw [← completed_tail]
    exact reads_ended chunks rfl
  · obtain ⟨whole, hsplits, htext⟩ := Utf8.feed_splits (Demuxer.unframed bytes)
    refine ⟨whole, _, _, hsplits, Utf8.decodes_iff.mpr htext, ?_⟩
    rintro chunks failure more endless rfl
    rw [← (Demuxer.feed_new_any chunks.flatten).1]
    exact reads_failed chunks failure more endless

/-- A frame that carries two characters, in chunks that cut the second one in two: read to its end,
and read up to a failure inside that character. -/
theorem reads_log_of_two_chars :
    let start : List (List UInt8) := [[1, 0, 0], [], [0, 0, 0, 0, 3, 104, 195]]
    (∃ texts last, texts.flatten = ['h', 'é'] ∧
      Reads { source := delivering (start ++ [[169]]) .empty } texts none last) ∧
    ∃ texts last, texts.flatten = ['h'] ∧
      Reads { source := delivering start ⟨[.error .brokenOff, .ok [169]], false⟩ } texts
        (some "docker: bytes remaining on stream") last := by
  intro start
  constructor
  · obtain ⟨⟨text, htext, hreads⟩, -⟩ := reads_log (start ++ [[169]]).flatten
    have hbytes : textBytes (start ++ [[169]]).flatten = [104, 195, 169] := by
      rw [textBytes, if_neg (by decide), ← (Demuxer.feed_new_any _).1]
      decide
    obtain rfl : text = ['h', 'é'] := by
      rw [Utf8.decodes_iff.mp htext, hbytes]
      decide
    exact hreads _ rfl
  · obtain ⟨-, whole, held, text, hsplits, htext, hreads⟩ := reads_log start.flatten
    have hbytes : Demuxer.unframed start.flatten = [104, 195] := by
      rw [← (Demuxer.feed_new_any _).1]
      decide
    rw [hbytes] at hsplits
    obtain rfl : text = ['h'] := by
      rw [Utf8.decodes_iff.mp htext, hsplits.lossy_eq]
      decide
    exact hreads _ .brokenOff _ _ rfl

end LogReader

end Dockboard.Stream
