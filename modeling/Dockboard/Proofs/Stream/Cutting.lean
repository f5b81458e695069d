import Dockboard.Proofs.Stream.Reading

set_option autoImplicit false

/-! # Reading a chunk at a time

A stream arrives in chunks, and a decoder that is given a whole chunk need not look at its bytes one
by one: inside a payload it passes on all that belongs to it, before and inside a header it takes
what the header lacks, and a stream without frames it passes on as it is.

    gulp        one round: the new state, what it yields and what the chunk has left
    readChunk   rounds until the chunk is used up
    Sound       a state in which a round uses something up

Such a decoder guesses on however much of the first header a chunk has brought, and the machine
over single bytes guesses at every byte. A guess goes wrong nowhere: what cannot begin a frame
cannot be made to by more bytes (`beginsFrame_of_append`), and so a guess on a short beginning and
a later one on a longer beginning agree. Round by round the two decoders are in the same state
(`gulp_eq`), and therefore at the end of each chunk (`readChunk_eq`).
-/

namespace Dockboard.Stream

/-- The first bytes show that there is no header: the first byte is not a tag, or one of the three
after it is not zero. -/
def RulesOutHeader (bytes : List UInt8) : Prop :=
  (∃ b, bytes[0]? = some b ∧ b ≠ 0 ∧ b ≠ 1 ∧ b ≠ 2) ∨
    ∃ i b, 1 ≤ i ∧ i ≤ 3 ∧ bytes[i]? = some b ∧ b ≠ 0

/-- The tags are the bytes up to two. -/
theorem tag_iff (b : UInt8) : b ≤ 2 ↔ b = 0 ∨ b = 1 ∨ b = 2 := by
  rw [UInt8.le_iff_toNat_le, ← UInt8.toNat_inj, ← UInt8.toNat_inj, ← UInt8.toNat_inj]
  show b.toNat ≤ 2 ↔ b.toNat = 0 ∨ b.toNat = 1 ∨ b.toNat = 2
  omega

/-- The guess goes by the first four bytes. -/
theorem beginsFrame_iff (bytes : List UInt8) :
    beginsFrame bytes = true ↔
      (∀ b, bytes[0]? = some b → b ≤ 2) ∧ ∀ i b, i < 3 → bytes[i + 1]? = some b → b = 0 := by
  have htail : (∀ b ∈ bytes.tail.take 3, b = 0) ↔
      ∀ i b, i < 3 → bytes[i + 1]? = some b → b = 0 := by
    constructor
    · intro h i b hi hb
      refine h b (List.mem_of_getElem? (i := i) ?_)
      rw [List.getElem?_take_of_lt hi, List.getElem?_tail, hb]
    · intro h b hmem
      obtain ⟨i, hb⟩ := List.getElem?_of_mem hmem
      rw [List.getElem?_take] at hb
      split at hb
      · exact h i b ‹_› (by rw [← List.getElem?_tail, hb])
      · cases hb
  rw [beginsFrame, Bool.and_eq_true, List.all_eq_true, Option.all_eq_true,
    List.head?_eq_getElem?, ← htail]
  simp only [decide_eq_true_eq, beq_iff_eq]

theorem rulesOutHeader_iff (bytes : List UInt8) :
    RulesOutHeader bytes ↔ beginsFrame bytes = false := by
  rw [← Bool.not_eq_true, beginsFrame_iff, Classical.not_and_iff_not_or_not]
  constructor
  · rintro (⟨b, hb, h0, h1, h2⟩ | ⟨i, b, hpos, hle, hb, hne⟩)
    · refine Or.inl fun hall => ?_
      rcases (tag_iff b).mp (hall b hb) with h | h | h
      · exact h0 h
      · exact h1 h
      · exact h2 h
    · refine Or.inr fun hall => hne (hall (i - 1) b (by omega) ?_)
      rw [Nat.sub_add_cancel hpos]
      exact hb
  · rintro (hnot | hnot)
    · simp only [not_forall] at hnot
      obtain ⟨b, hb, hlarge⟩ := hnot
      rw [tag_iff, not_or, not_or] at hlarge
      exact Or.inl ⟨b, hb, hlarge⟩
    · simp only [not_forall] at hnot
      obtain ⟨i, b, hlt, hb, hne⟩ := hnot
      exact Or.inr ⟨i + 1, b, by omega, by omega, hb, hne⟩

namespace Demuxer

/-- One round of reading a chunk: the new state, the bytes that it yields, and those that are left
of the chunk. -/
def gulp (state : Demuxer) (chunk : List UInt8) : Demuxer × List UInt8 × List UInt8 :=
  match state with
  | .plain => (.plain, chunk, [])
  | .payload left => (awaiting (left - chunk.length), chunk.take left, chunk.drop left)
  | .header seen =>
      let need := headerLength - seen.length
      (afterHeader (seen ++ chunk.take need), [], chunk.drop need)
  | .undecided seen =>
      let need := headerLength - seen.length
      let seen := seen ++ chunk.take need
      if !beginsFrame seen then (.plain, seen ++ chunk.drop need, [])
      else if seen.length < headerLength then (.undecided seen, [], chunk.drop need)
      else (afterHeader seen, [], chunk.drop need)

/-- Read a chunk in rounds, as long as they use something up. -/
def readChunk (state : Demuxer) (chunk : List UInt8) : Demuxer × List UInt8 :=
  if chunk.isEmpty then (state, [])
  else
    match state.gulp chunk with
    | (state, now, rest) =>
        if _h : rest.length < chunk.length then
          let (state, later) := readChunk state rest
          (state, now ++ later)
        else (state, now)
termination_by chunk.length

/-- Read chunks one after the other, each of them in rounds. -/
def readChunks (state : Demuxer) : List (List UInt8) → Demuxer × List UInt8
  | [] => (state, [])
  | chunk :: rest =>
      let (state, now) := state.readChunk chunk
      let (state, later) := readChunks state rest
      (state, now ++ later)

/-- What is held back lacks something to be a header, and a payload that is under way is not
over. -/
def Sound : Demuxer → Prop
  | .undecided seen => seen.length < headerLength ∧ beginsFrame seen = true
  | .plain => True
  | .header seen => seen.length < headerLength
  | .payload left => 0 < left

theorem sound_new : Sound new := ⟨by decide, rfl⟩

theorem sound_awaiting (n : Nat) : Sound (awaiting n) := by
  unfold awaiting
  split
  · exact (by decide : ([] : List UInt8).length < headerLength)
  · exact Nat.pos_of_ne_zero ‹_›

theorem sound_afterHeader (seen : List UInt8) : Sound (afterHeader seen) := by
  unfold afterHeader
  split
  · exact ‹_›
  · exact sound_awaiting _

/-- What a round has to do: it uses something up, it leaves a sound state, and the machine over
single bytes is in that state when it has read what the round used up. -/
structure Rounds (state : Demuxer) (chunk : List UInt8)
    (after : Demuxer × List UInt8 × List UInt8) : Prop where
  sound : Sound after.1
  shorter : after.2.2.length < chunk.length
  feed_eq : state.feed chunk = ((after.1.feed after.2.2).1, after.2.1 ++ (after.1.feed after.2.2).2)

/-- A round that reads the first part of its chunk. -/
theorem rounds_of_append {state state' : Demuxer} {first yielded : List UInt8}
    (rest : List UInt8) (hne : first ≠ []) (hsound : Sound state')
    (hfeed : state.feed first = (state', yielded)) :
    Rounds state (first ++ rest) (state', yielded, rest) where
  sound := hsound
  shorter := by
    have hpos : 0 < first.length := List.length_pos_iff.mpr hne
    show rest.length < (first ++ rest).length
    rw [List.length_append]
    omega
  feed_eq := by rw [feed_append, hfeed]

section Round

variable {seen chunk : List UInt8}

theorem take_ne_nil {n : Nat} (hpos : 0 < n) (hne : chunk ≠ []) : chunk.take n ≠ [] := by
  intro hnil
  rcases List.take_eq_nil_iff.mp hnil with hzero | hchunk
  · omega
  · exact hne hchunk

/-- What the header lacks is not more than what makes it whole. -/
theorem length_add_need_le (chunk : List UInt8) (hlt : seen.length < headerLength) :
    seen.length + (chunk.take (headerLength - seen.length)).length ≤ 8 := by
  have hle := List.length_take_le (headerLength - seen.length) chunk
  rw [headerLength] at hlt hle ⊢
  omega

theorem rounds_payload {left : Nat} (hpos : 0 < left) (hne : chunk ≠ []) :
    Rounds (payload left) chunk ((payload left).gulp chunk) := by
  have hawaiting : payload left = awaiting left := by
    rw [awaiting, if_neg (by omega)]
  have hfirst : (payload left).feed (chunk.take left) =
      (awaiting (left - chunk.length), chunk.take left) := by
    rw [hawaiting, feed_awaiting (List.length_take_le _ _), List.length_take]
    congr 2
    omega
  have hround := rounds_of_append (chunk.drop left) (take_ne_nil hpos hne)
    (sound_awaiting _) hfirst
  rw [List.take_append_drop] at hround
  exact hround

theorem rounds_header (hlt : seen.length < headerLength) (hne : chunk ≠ []) :
    Rounds (header seen) chunk ((header seen).gulp chunk) := by
  have htake := take_ne_nil (Nat.sub_pos_of_lt hlt) hne
  have hround := rounds_of_append (chunk.drop (headerLength - seen.length)) htake
    (sound_afterHeader _) (feed_header seen htake (length_add_need_le chunk hlt))
  rw [List.take_append_drop] at hround
  exact hround

/-- The guess of a round, in each of its outcomes. -/
theorem rounds_undecided (hlt : seen.length < headerLength) (hbegins : beginsFrame seen = true)
    (hne : chunk ≠ []) : Rounds (undecided seen) chunk ((undecided seen).gulp chunk) := by
  have htake := take_ne_nil (Nat.sub_pos_of_lt hlt) hne
  have hle := length_add_need_le chunk hlt
  -- What the round guesses on are the first eight bytes, as far as they have arrived.
  have hseen : (seen ++ chunk).take headerLength =
      seen ++ chunk.take (headerLength - seen.length) := by
    rw [List.take_append, List.take_of_length_le (Nat.le_of_lt hlt)]
  cases hguess : beginsFrame (seen ++ chunk.take (headerLength - seen.length)) with
  | false =>
      have hplain : (undecided seen).feed chunk = (plain, seen ++ chunk) :=
        feed_not_framed hbegins (by rw [hseen, hguess])
      have hgulp : (undecided seen).gulp chunk = (plain, seen ++ chunk, []) := by
        simp only [gulp, hguess, Bool.not_false, if_true, List.append_assoc,
          List.take_append_drop]
      rw [hgulp]
      refine ⟨trivial, List.length_pos_iff.mpr hne, ?_⟩
      rw [hplain, feed_nil, List.append_nil]
  | true =>
      have hfirst := feed_undecided seen htake hle hguess
      by_cases hshort : (seen ++ chunk.take (headerLength - seen.length)).length < headerLength
      · rw [if_pos hshort] at hfirst
        have hsound : Sound (undecided (seen ++ chunk.take (headerLength - seen.length))) :=
          ⟨hshort, hguess⟩
        have hround := rounds_of_append (chunk.drop (headerLength - seen.length)) htake
          hsound hfirst
        rw [List.take_append_drop] at hround
        simpa only [gulp, hguess, Bool.not_true, Bool.false_eq_true, if_false, if_pos hshort]
          using hround
      · rw [if_neg hshort] at hfirst
        have hround := rounds_of_append (chunk.drop (headerLength - seen.length)) htake
          (sound_afterHeader _) hfirst
        rw [List.take_append_drop] at hround
        simpa only [gulp, hguess, Bool.not_true, Bool.false_eq_true, if_false, if_neg hshort]
          using hround

end Round

/-- **A round** does what the machine over single bytes does with the same bytes. -/
theorem gulp_eq {state : Demuxer} {chunk : List UInt8} (hsound : Sound state) (hne : chunk ≠ []) :
    Rounds state chunk (state.gulp chunk) := by
  cases state with
  | undecided seen => exact rounds_undecided hsound.1 hsound.2 hne
  | plain =>
      refine ⟨trivial, List.length_pos_iff.mpr hne, ?_⟩
      rw [feed_plain, gulp, feed_nil, List.append_nil]
  | header seen => exact rounds_header hsound hne
  | payload left => exact rounds_payload hsound hne

/-- The decoder that reads a chunk in rounds, and the machine over its bytes. -/
theorem readChunk_eq {state : Demuxer} (hsound : Sound state) (chunk : List UInt8) :
    state.readChunk chunk = state.feed chunk ∧ Sound (state.feed chunk).1 := by
  induction hlen : chunk.length using Nat.strongRecOn generalizing state chunk with
  | ind n ih =>
      subst hlen
      rw [readChunk]
      by_cases hne : chunk = []
      · subst hne
        exact ⟨rfl, hsound⟩
      · obtain ⟨hsound', hshorter, hfeed⟩ := gulp_eq hsound hne
        obtain ⟨hrest, hend⟩ := ih _ hshorter hsound' _ rfl
        rw [if_neg (by rwa [List.isEmpty_iff]), hfeed]
        refine ⟨?_, hend⟩
        simp only [dif_pos hshorter, hrest]

/-- The same for chunks one after the other. -/
theorem readChunks_eq {state : Demuxer} (hsound : Sound state) (chunks : List (List UInt8)) :
    state.readChunks chunks = state.feedChunks chunks := by
  induction chunks generalizing state with
  | nil => rfl
  | cons chunk chunks ih =>
      obtain ⟨hread, hsound'⟩ := readChunk_eq hsound chunk
      simp only [readChunks, hread, ih hsound', feedChunks]

/-- Bytes that rule out a header are passed on as they are. -/
theorem feed_of_rulesOutHeader {bytes : List UInt8} (h : RulesOutHeader bytes) :
    new.feed bytes = (plain, bytes) := by
  have hfalse : beginsFrame (bytes.take headerLength) = false := by
    rw [← rulesOutHeader_iff]
    -- The four bytes that decide are among the first eight.
    rcases h with ⟨b, hb, hne⟩ | ⟨i, b, hpos, hle, hb, hne⟩
    · refine Or.inl ⟨b, ?_, hne⟩
      rw [List.getElem?_take_of_lt (by decide), hb]
    · refine Or.inr ⟨i, b, hpos, hle, ?_, hne⟩
      rw [List.getElem?_take_of_lt (by rw [headerLength]; omega), hb]
  exact feed_not_framed rfl hfalse

/-- **Cutting a stream.** However the same bytes are cut into chunks, and whether the chunks are
read in rounds or byte by byte: what is yielded, how the stream ends if it ends there, and what is
held back are the same. What is yielded is what the bytes carry, and what is held back is all of
them as long as they are too few to tell whether there are frames, and nothing after that. Bytes
that rule out a header are yielded unchanged, with nothing held back, and end cleanly. -/
theorem readChunks_cut (chunks chunks' : List (List UInt8)) (h : chunks.flatten = chunks'.flatten) :
    (new.readChunks chunks).2 = (new.readChunks chunks').2 ∧
      (new.readChunks chunks).1.finish = (new.readChunks chunks').1.finish ∧
      (new.readChunks chunks).1.pendingRaw = (new.readChunks chunks').1.pendingRaw ∧
      new.readChunks chunks = new.feedChunks chunks ∧
      (new.readChunks chunks).2 = unframed chunks.flatten ∧
      (new.readChunks chunks).1.pendingRaw =
        (if Undecided chunks.flatten then chunks.flatten else []) ∧
      (RulesOutHeader chunks.flatten →
        (new.readChunks chunks).2 = chunks.flatten ∧
          (new.readChunks chunks).1.finish = .clean ∧
          (new.readChunks chunks).1.pendingRaw = []) := by
  have heq : new.readChunks chunks = new.feed chunks.flatten := by
    rw [readChunks_eq sound_new, feedChunks_eq]
  have heq' : new.readChunks chunks' = new.feed chunks.flatten := by
    rw [readChunks_eq sound_new, feedChunks_eq, h]
  obtain ⟨hout, hpending⟩ := feed_new_any chunks.flatten
  rw [heq, heq', feedChunks_eq]
  refine ⟨rfl, rfl, rfl, rfl, hout, hpending, fun hrules => ?_⟩
  rw [feed_of_rulesOutHeader hrules]
  exact ⟨rfl, rfl, rfl⟩

/-- A stream whose third byte rules out a header, cut before and behind that byte. -/
theorem readChunks_cut_plain :
    let chunks : List (List UInt8) := [[1], [0], [], [104, 0, 0, 0, 0, 0, 7]]
    let chunks' : List (List UInt8) := [[1, 0, 104], [0, 0, 0, 0, 0, 7]]
    chunks.flatten = chunks'.flatten ∧ RulesOutHeader chunks.flatten ∧
      (new.readChunks chunks).2 = [1, 0, 104, 0, 0, 0, 0, 0, 7] ∧
      (new.readChunks chunks').2 = [1, 0, 104, 0, 0, 0, 0, 0, 7] := by
  intro chunks chunks'
  have hflat : chunks.flatten = chunks'.flatten := rfl
  have hrules : RulesOutHeader chunks.flatten :=
    Or.inr ⟨2, 104, by decide, by decide, rfl, by decide⟩
  obtain ⟨hsame, -, -, -, -, -, hplain⟩ := readChunks_cut chunks chunks' hflat
  have hout := (hplain hrules).1
  exact ⟨hflat, hrules, hout, hsame.symm.trans hout⟩

end Demuxer

end Dockboard.Stream
