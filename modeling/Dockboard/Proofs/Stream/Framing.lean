import Dockboard.Stream.Demuxer

set_option autoImplicit false

/-! # Taking frames off a stream

What the decoder makes of a stream of frames that has been read up to some byte, however it was cut
into chunks. Each byte of the stream is marked with whether it belongs to a payload,

    tag, 0, 0, 0, n₃, n₂, n₁, n₀, b₁, …, bₙ
     -   -  -  -  -   -   -   -   +       +

so that the payload within the first `n` bytes is what is marked among them.

Up to the eighth byte the decoder only holds back what it reads (`feed_undecided`). From then
on it does what it would have done had it known from the beginning that there are frames
(`feed_new`), and so the frames can be taken one by one (`feed_frames`).
-/

namespace Dockboard.Stream

/-- A frame whose payload is short enough for its header to tell the length. -/
structure Frame where
  source : Source
  payload : List UInt8
  fits : payload.length < UInt32.size

namespace Frame

/-- The frame as bytes. -/
def bytes (f : Frame) : List UInt8 := encodeFrame f.source f.payload

/-- The bytes of the frame before its payload. -/
def header (f : Frame) : List UInt8 :=
  f.source.tag :: 0 :: 0 :: 0 :: lengthBytes f.payload.length

/-- The bytes of the frame, each with whether it belongs to the payload. -/
def marked (f : Frame) : List (UInt8 × Bool) :=
  f.header.map (·, false) ++ f.payload.map (·, true)

theorem bytes_eq (f : Frame) : f.bytes = f.header ++ f.payload := by
  simp [bytes, header, encodeFrame]

@[simp] theorem length_header (f : Frame) : f.header.length = 8 := rfl

theorem length_bytes (f : Frame) : f.bytes.length = 8 + f.payload.length := by
  rw [bytes_eq, List.length_append, length_header]

/-- The marks leave the bytes as they are. -/
theorem marked_map_fst (f : Frame) : f.marked.map Prod.fst = f.bytes := by
  simp [marked, bytes_eq, List.map_map, Function.comp_def]

theorem length_marked (f : Frame) : f.marked.length = 8 + f.payload.length := by
  rw [← length_bytes, ← marked_map_fst, List.length_map]

end Frame

/-- The stream that carries some frames. -/
def encodeFrames (frames : List Frame) : List UInt8 := frames.flatMap Frame.bytes

/-- The payload bytes among the first `n` bytes of the stream that carries some frames. -/
def payloadWithin (frames : List Frame) (n : Nat) : List UInt8 :=
  (((frames.flatMap Frame.marked).take n).filter Prod.snd).map Prod.fst

/-- Whether a stream of some frames that ends after `read` ends between two of them. -/
def EndsWhole (frames : List Frame) (read : List UInt8) : Prop :=
  ∃ whole, whole <+: frames ∧ read = encodeFrames whole

theorem encodeFrames_cons (f : Frame) (frames : List Frame) :
    encodeFrames (f :: frames) = f.header ++ (f.payload ++ encodeFrames frames) := by
  rw [encodeFrames, List.flatMap_cons, Frame.bytes_eq, List.append_assoc]
  rfl

/-- A beginning of `xs ++ ys` ends inside `xs` or behind it. -/
theorem prefix_append_cases {xs ys read : List UInt8} (h : read <+: xs ++ ys) :
    (read <+: xs ∧ read.length < xs.length) ∨ ∃ more, read = xs ++ more ∧ more <+: ys := by
  rcases List.prefix_or_prefix_of_prefix h (List.prefix_append xs ys) with hread | ⟨more, rfl⟩
  · by_cases hlt : read.length < xs.length
    · exact Or.inl ⟨hread, hlt⟩
    · have hall : read = xs := hread.eq_of_length_le (by omega)
      exact Or.inr ⟨[], by rw [hall, List.append_nil], List.nil_prefix⟩
  · exact Or.inr ⟨more, rfl, (List.prefix_append_right_inj xs).mp h⟩

/-- The first frame is read as a whole, or nothing is. -/
theorem endsWhole_cons (f : Frame) (frames : List Frame) (read : List UInt8) :
    EndsWhole (f :: frames) read ↔
      read = [] ∨ ∃ rest, read = f.header ++ (f.payload ++ rest) ∧ EndsWhole frames rest := by
  constructor
  · rintro ⟨whole, hpre, rfl⟩
    cases whole with
    | nil => exact Or.inl rfl
    | cons g more =>
        obtain ⟨rfl, hmore⟩ := List.cons_prefix_cons.mp hpre
        exact Or.inr ⟨encodeFrames more, encodeFrames_cons g more, more, hmore, rfl⟩
  · rintro (rfl | ⟨rest, rfl, whole, hpre, rfl⟩)
    · exact ⟨[], List.nil_prefix, rfl⟩
    · exact ⟨f :: whole, List.cons_prefix_cons.mpr ⟨rfl, hpre⟩, (encodeFrames_cons f whole).symm⟩

theorem endsWhole_append (f : Frame) (frames : List Frame) (rest : List UInt8) :
    EndsWhole (f :: frames) (f.header ++ (f.payload ++ rest)) ↔ EndsWhole frames rest := by
  rw [endsWhole_cons]
  constructor
  · rintro (hnil | ⟨rest', heq, hends⟩)
    · exact absurd hnil (by simp [Frame.header])
    · rw [List.append_cancel_left (List.append_cancel_left heq)]
      exact hends
  · intro hends
    exact Or.inr ⟨rest, rfl, hends⟩

theorem payloadWithin_cons (f : Frame) (frames : List Frame) (n : Nat) :
    payloadWithin (f :: frames) n =
      f.payload.take (n - 8) ++ payloadWithin frames (n - 8 - f.payload.length) := by
  have hheader : ((f.header.map (·, false)).take n).filter Prod.snd = [] := by
    rw [← List.map_take, List.filter_map]
    simp
  have hpayload (k : Nat) : (((f.payload.map (·, true)).take k).filter Prod.snd).map Prod.fst =
      f.payload.take k := by
    rw [← List.map_take, List.filter_map]
    simp [Function.comp_def]
  rw [payloadWithin, List.flatMap_cons, List.take_append, List.filter_append, List.map_append,
    Frame.length_marked, Nat.sub_add_eq]
  congr 1
  rw [Frame.marked, List.take_append, List.filter_append, List.map_append, hheader, hpayload]
  simp

theorem payloadWithin_of_lt (frames : List Frame) {n : Nat} (h : n < 8) :
    payloadWithin frames n = [] := by
  induction frames with
  | nil => simp [payloadWithin]
  | cons f frames ih =>
      have hzero : n - 8 = 0 := by omega
      rw [payloadWithin_cons, hzero, List.take_zero, List.nil_append, Nat.zero_sub]
      simp [payloadWithin]

/-! ## Headers -/

theorem readLength_lengthBytes {n : Nat} (h : n < UInt32.size) :
    readLength (lengthBytes n) = n := by
  have hlt : n < 4294967296 := h
  simp only [lengthBytes, readLength, List.foldl_cons, List.foldl_nil, UInt8.toNat_ofNat']
  omega

theorem readLength_header (f : Frame) : readLength (f.header.drop 4) = f.payload.length :=
  readLength_lengthBytes f.fits

/-- What begins like something that can begin a frame can itself begin a frame. -/
theorem beginsFrame_of_append {xs ys : List UInt8} (h : beginsFrame (xs ++ ys) = true) :
    beginsFrame xs = true := by
  cases xs with
  | nil => rfl
  | cons x xs =>
      simp only [beginsFrame, List.cons_append, List.head?_cons, List.tail_cons, List.take_append,
        List.all_append, Bool.and_eq_true] at h ⊢
      exact ⟨h.1, h.2.1⟩

theorem beginsFrame_header (f : Frame) : beginsFrame f.header = true := by
  cases hs : f.source <;> simp [Frame.header, beginsFrame, Source.tag, hs]

namespace Demuxer

/-! ## The machine on a run of bytes -/

@[simp] theorem feed_nil (state : Demuxer) : state.feed [] = (state, []) := rfl

theorem feed_cons (state : Demuxer) (b : UInt8) (rest : List UInt8) :
    state.feed (b :: rest) =
      (((state.step b).1.feed rest).1, (state.step b).2 ++ ((state.step b).1.feed rest).2) := rfl

/-- Up to the end of a header nothing is yielded. -/
theorem feed_header (seen : List UInt8) {xs : List UInt8} (hne : xs ≠ [])
    (hle : seen.length + xs.length ≤ 8) :
    (header seen).feed xs = (afterHeader (seen ++ xs), []) := by
  induction xs generalizing seen with
  | nil => exact absurd rfl hne
  | cons b xs ih =>
      cases xs with
      | nil => rfl
      | cons c xs =>
          -- Before another byte the header cannot have come to its end.
          have hlt : (seen ++ [b]).length < headerLength := by
            simp only [List.length_cons] at hle
            rw [List.length_append, List.length_singleton, headerLength]
            omega
          have hstep : (header seen).step b = (header (seen ++ [b]), []) := by
            simp only [step, afterHeader, if_pos hlt]
          have hle' : (seen ++ [b]).length + (c :: xs).length ≤ 8 := by
            rw [List.length_append, List.length_singleton]
            simp only [List.length_cons] at hle ⊢
            omega
          rw [feed_cons, hstep, ih (seen ++ [b]) (by simp) hle']
          simp

/-- What can begin a frame is held back, until it is as long as a header. -/
theorem step_undecided {seen : List UInt8} {b : UInt8} (h : beginsFrame (seen ++ [b]) = true) :
    (undecided seen).step b =
      (if (seen ++ [b]).length < headerLength then undecided (seen ++ [b])
        else afterHeader (seen ++ [b]), []) := by
  rw [step, h]
  by_cases hlt : (seen ++ [b]).length < headerLength
  · simp only [if_pos hlt, Bool.not_true, Bool.false_eq_true, if_false]
  · simp only [if_neg hlt, Bool.not_true, Bool.false_eq_true, if_false]

theorem feed_undecided (seen : List UInt8) {xs : List UInt8} (hne : xs ≠ [])
    (hle : seen.length + xs.length ≤ 8) (hbegins : beginsFrame (seen ++ xs) = true) :
    (undecided seen).feed xs =
      (if (seen ++ xs).length < headerLength then undecided (seen ++ xs)
        else afterHeader (seen ++ xs), []) := by
  induction xs generalizing seen with
  | nil => exact absurd rfl hne
  | cons b xs ih =>
      have hsplit : seen ++ b :: xs = (seen ++ [b]) ++ xs := by simp
      rw [hsplit] at hbegins ⊢
      rw [feed_cons, step_undecided (beginsFrame_of_append hbegins)]
      cases xs with
      | nil => simp
      | cons c xs =>
          have hlt : (seen ++ [b]).length < headerLength := by
            simp only [List.length_cons] at hle
            rw [List.length_append, List.length_singleton, headerLength]
            omega
          have hle' : (seen ++ [b]).length + (c :: xs).length ≤ 8 := by
            rw [List.length_append, List.length_singleton]
            simp only [List.length_cons] at hle ⊢
            omega
          rw [if_pos hlt, ih (seen ++ [b]) (by simp) hle' hbegins]
          rfl

/-- A payload is yielded as it comes. -/
theorem feed_awaiting {n : Nat} {xs : List UInt8} (h : xs.length ≤ n) :
    (awaiting n).feed xs = (awaiting (n - xs.length), xs) := by
  induction xs generalizing n with
  | nil => simp
  | cons b xs ih =>
      simp only [List.length_cons] at h
      have hstep : (awaiting n).step b = (awaiting (n - 1), [b]) := by
        have hpos : n ≠ 0 := by omega
        rw [awaiting, if_neg hpos]
        rfl
      rw [feed_cons, hstep, ih (by omega), List.length_cons, Nat.sub_sub, Nat.add_comm 1]
      rfl

/-- The decoder after a whole header. -/
theorem feed_whole_header (f : Frame) :
    (header []).feed f.header = (awaiting f.payload.length, []) := by
  have hlong : ¬ f.header.length < headerLength := by
    rw [Frame.length_header]
    exact Nat.lt_irrefl 8
  rw [feed_header [] (by simp [Frame.header]) (by simp), List.nil_append, afterHeader, if_neg hlong,
    readLength_header]

/-! ## Frames one by one -/

/-- **A beginning of a stream of frames**, read by a decoder that knows that there are frames: it
yields the payload of what it has read, and stands before a header exactly when what it has read
are whole frames. -/
theorem feed_frames (frames : List Frame) {read : List UInt8} (h : read <+: encodeFrames frames) :
    ((header []).feed read).2 = payloadWithin frames read.length ∧
      (((header []).feed read).1.finish = .clean ↔ EndsWhole frames read) ∧
      ((header []).feed read).1.pendingRaw = [] := by
  induction frames generalizing read with
  | nil =>
      obtain rfl : read = [] := by simpa [encodeFrames] using h
      exact ⟨rfl, ⟨fun _ => ⟨[], List.nil_prefix, rfl⟩, fun _ => rfl⟩, rfl⟩
  | cons f frames ih =>
      rw [encodeFrames_cons] at h
      -- What has been read ends in the first header, in its payload or behind both.
      rcases prefix_append_cases h with ⟨-, hlt⟩ | ⟨more, rfl, hmore⟩
      · rw [Frame.length_header] at hlt
        rw [payloadWithin_of_lt _ hlt, endsWhole_cons]
        cases read with
        | nil => exact ⟨rfl, ⟨fun _ => Or.inl rfl, fun _ => rfl⟩, rfl⟩
        | cons b read =>
            have hstate : (header []).feed (b :: read) = (header (b :: read), []) := by
              rw [feed_header [] (by simp) (by simpa using Nat.le_of_lt hlt), List.nil_append,
                afterHeader, if_pos (show (b :: read).length < headerLength from hlt)]
            rw [hstate]
            refine ⟨rfl, ⟨fun hclean => by simp [finish] at hclean, ?_⟩, rfl⟩
            rintro (hnil | ⟨rest, hrest, -⟩)
            · exact absurd hnil (by simp)
            · have hlen := congrArg List.length hrest
              rw [List.length_append, Frame.length_header] at hlen
              omega
      · rw [feed_append, feed_whole_header, List.nil_append, payloadWithin_cons,
          List.length_append, Frame.length_header, Nat.add_sub_cancel_left]
        rcases prefix_append_cases hmore with ⟨hpre, hlt⟩ | ⟨rest, rfl, hrest⟩
        · -- Some of the payload is still to come, so the frame is not whole.
          have hleft : f.payload.length - more.length ≠ 0 := by omega
          have hover : more.length - f.payload.length = 0 := by omega
          rw [feed_awaiting (Nat.le_of_lt hlt), awaiting, if_neg hleft, hover,
            payloadWithin_of_lt _ (by decide), List.append_nil, endsWhole_cons]
          refine ⟨List.prefix_iff_eq_take.mp hpre, ⟨fun hclean => by simp [finish] at hclean, ?_⟩,
            rfl⟩
          rintro (hnil | ⟨rest, hrest, -⟩)
          · exact absurd hnil (by simp [Frame.header])
          · have hlen := congrArg List.length (List.append_cancel_left hrest)
            rw [List.length_append] at hlen
            omega
        · have hpayload : (awaiting f.payload.length).feed f.payload = (header [], f.payload) := by
            rw [feed_awaiting (Nat.le_refl _), Nat.sub_self]
            rfl
          obtain ⟨hout, hclean, hpending⟩ := ih hrest
          rw [feed_append, hpayload, endsWhole_append, List.length_append, Nat.add_sub_cancel_left,
            List.take_of_length_le (Nat.le_add_right _ _), ← hout]
          exact ⟨rfl, hclean, hpending⟩

/-- What has been read of a stream of frames can begin a frame, as far as its first header goes. -/
theorem beginsFrame_of_start {frames : List Frame} {read : List UInt8}
    (h : read <+: encodeFrames frames) (hle : read.length ≤ 8) : beginsFrame read = true := by
  cases frames with
  | nil =>
      obtain rfl : read = [] := by simpa [encodeFrames] using h
      rfl
  | cons f frames =>
      rw [encodeFrames_cons] at h
      have hpre : read <+: f.header :=
        List.prefix_of_prefix_length_le h (List.prefix_append _ _) (by simpa using hle)
      obtain ⟨more, hmore⟩ := hpre
      exact beginsFrame_of_append (by rw [hmore]; exact beginsFrame_header f)

/-- What can begin a frame is held back as a whole while it is shorter than a header. -/
theorem feed_short {bytes : List UInt8} (hbegins : beginsFrame bytes = true)
    (hlt : bytes.length < 8) : new.feed bytes = (undecided bytes, []) := by
  by_cases hnil : bytes = []
  · subst hnil
    rfl
  · rw [new, feed_undecided [] hnil (by simpa using Nat.le_of_lt hlt) hbegins, List.nil_append,
      if_pos (show bytes.length < headerLength from hlt)]

/-- From its eighth byte on a stream that begins like a frame is read as by a decoder that knows
what it is. -/
theorem feed_begun {bytes : List UInt8} (hbegins : beginsFrame (bytes.take 8) = true)
    (hle : 8 ≤ bytes.length) : new.feed bytes = (header []).feed bytes := by
  have hlen : (bytes.take 8).length = 8 := List.length_take_of_le hle
  have hne : bytes.take 8 ≠ [] := List.ne_nil_of_length_pos (by omega)
  have hfirst : new.feed (bytes.take 8) = (header []).feed (bytes.take 8) := by
    calc new.feed (bytes.take 8)
        = (afterHeader (bytes.take 8), []) := by
          rw [new, feed_undecided [] hne (by simp [hlen]) hbegins, List.nil_append,
            if_neg (by rw [hlen]; decide)]
      _ = (header []).feed (bytes.take 8) := by
          rw [feed_header [] hne (by simp [hlen]), List.nil_append]
  -- The first eight bytes leave both in the same state, and the others follow.
  rw [← List.take_append_drop 8 bytes, feed_append, feed_append, hfirst]

theorem feed_new_of_lt {frames : List Frame} {read : List UInt8} (h : read <+: encodeFrames frames)
    (hlt : read.length < 8) : new.feed read = (undecided read, []) :=
  feed_short (beginsFrame_of_start h (Nat.le_of_lt hlt)) hlt

theorem feed_new {frames : List Frame} {read : List UInt8} (h : read <+: encodeFrames frames)
    (hle : 8 ≤ read.length) : new.feed read = (header []).feed read := by
  have hlen : (read.take 8).length = 8 := List.length_take_of_le hle
  have hpre : read.take 8 <+: encodeFrames frames := (List.take_prefix 8 read).trans h
  exact feed_begun (beginsFrame_of_start hpre (Nat.le_of_eq hlen)) hle

/-! ## Chunks -/

/-- Read chunks one after the other. -/
def feedChunks (state : Demuxer) : List (List UInt8) → Demuxer × List UInt8
  | [] => (state, [])
  | chunk :: rest =>
      let (state, now) := state.feed chunk
      let (state, later) := feedChunks state rest
      (state, now ++ later)

/-- It makes no difference how a stream is cut. -/
theorem feedChunks_eq (state : Demuxer) (chunks : List (List UInt8)) :
    state.feedChunks chunks = state.feed chunks.flatten := by
  induction chunks generalizing state with
  | nil => rfl
  | cons chunk chunks ih =>
      rw [List.flatten_cons, feed_append, ← ih]
      rfl

/-- **Decoding a stream of frames.** Whatever beginning of the stream has been read, in whatever
chunks: the payload within it has been yielded, and nothing else; if the stream ends there, it is
truncated exactly when it is at least as long as a header and ends inside a frame; and what is
held back is all of it as long as it is shorter than a header, and nothing after that. -/
theorem feedChunks_frames (frames : List Frame) (chunks : List (List UInt8))
    (h : chunks.flatten <+: encodeFrames frames) :
    (new.feedChunks chunks).2 = payloadWithin frames chunks.flatten.length ∧
      ((new.feedChunks chunks).1.finish = .truncated ↔
        8 ≤ chunks.flatten.length ∧ ¬ EndsWhole frames chunks.flatten) ∧
      ((new.feedChunks chunks).1.finish = .clean ↔
        chunks.flatten.length < 8 ∨ EndsWhole frames chunks.flatten) ∧
      (new.feedChunks chunks).1.pendingRaw =
        if chunks.flatten.length < 8 then chunks.flatten else [] := by
  rw [feedChunks_eq]
  generalize chunks.flatten = read at h ⊢
  have hending (e : Ending) : e = .truncated ↔ ¬ e = .clean := by cases e <;> simp
  rw [hending]
  by_cases hlt : read.length < 8
  · rw [feed_new_of_lt h hlt, payloadWithin_of_lt frames hlt, if_pos hlt]
    exact ⟨rfl, by simp [finish, Nat.not_le_of_lt hlt], by simp [finish, hlt], rfl⟩
  · obtain ⟨hout, hclean, hpending⟩ := feed_frames frames h
    rw [feed_new h (Nat.le_of_not_lt hlt), hclean, if_neg hlt]
    exact ⟨hout, by simp [Nat.le_of_not_lt hlt], by simp [hlt], hpending⟩

/-- Two frames, the second of them broken off after two bytes of its payload, in four chunks of
which one is empty. -/
theorem feedChunks_hello_wo :
    let frames : List Frame :=
      [⟨.stdout, [104, 101, 108, 108, 111], by decide⟩, ⟨.stderr, [119, 111, 114], by decide⟩]
    let chunks : List (List UInt8) :=
      [[1, 0, 0], [], [0, 0, 0, 0, 5, 104, 101], [108, 108, 111, 2, 0, 0, 0, 0, 0, 0, 3, 119, 111]]
    chunks.flatten <+: encodeFrames frames ∧
      (new.feedChunks chunks).2 = [104, 101, 108, 108, 111, 119, 111] ∧
      (new.feedChunks chunks).1.finish = .truncated ∧
      ¬ EndsWhole frames chunks.flatten ∧
      (new.feedChunks chunks).1.pendingRaw = [] := by
  intro frames chunks
  have hpre : chunks.flatten <+: encodeFrames frames := by decide
  obtain ⟨hout, htruncated, -, hpending⟩ := feedChunks_frames frames chunks hpre
  have hfinish : (new.feedChunks chunks).1.finish = .truncated := by decide
  refine ⟨hpre, ?_, hfinish, (htruncated.mp hfinish).2, ?_⟩
  · rw [hout]
    decide
  · rw [hpending]
    decide

end Demuxer

end Dockboard.Stream
