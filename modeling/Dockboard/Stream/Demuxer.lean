set_option autoImplicit false

/-! # Log frames

The output of a container without a terminal arrives as a sequence of frames, each of them

    tag, 0, 0, 0, n₃, n₂, n₁, n₀, b₁, …, bₙ      with `n = n₃n₂n₁n₀` in base 256,

where the tag is 0, 1 or 2 for the standard streams of a process. The output of a container with
a terminal has no frames. Which of the two a stream is shows in its first bytes: as long as
they can begin a frame they are held back, and when they cannot, the whole stream is plain.

The decoder is a machine over single bytes, so that how the stream is cut makes no difference.
-/

namespace Dockboard.Stream

/-- The standard stream a frame belongs to. -/
inductive Source where
  | stdin
  | stdout
  | stderr
  deriving DecidableEq, Repr, Inhabited

/-- The first byte of the frames of a stream. -/
def Source.tag : Source → UInt8
  | .stdin => 0
  | .stdout => 1
  | .stderr => 2

/-- The length of a frame's header. -/
def headerLength : Nat := 8

/-- The four bytes that write `n`, of which the most significant digits are lost when it is too
large for them. -/
def lengthBytes (n : Nat) : List UInt8 :=
  [UInt8.ofNat (n / 0x1000000), UInt8.ofNat (n / 0x10000), UInt8.ofNat (n / 0x100), UInt8.ofNat n]

/-- The number that `bytes` write in base 256. -/
def readLength (bytes : List UInt8) : Nat := bytes.foldl (fun n b => n * 256 + b.toNat) 0

/-- The frame that carries `payload`. -/
def encodeFrame (source : Source) (payload : List UInt8) : List UInt8 :=
  source.tag :: 0 :: 0 :: 0 :: (lengthBytes payload.length ++ payload)

/-- Whether a frame can begin with `seen`. -/
def beginsFrame (seen : List UInt8) : Bool :=
  seen.head?.all (· ≤ 2) && (seen.tail.take 3).all (· == 0)

/-- How far the stream has been read. -/
inductive Demuxer where
  /-- Fewer bytes have been `seen` than a header has, and they can begin one. -/
  | undecided (seen : List UInt8)
  /-- The stream has no frames. -/
  | plain
  /-- Inside or before a header of which some bytes have been `seen`. -/
  | header (seen : List UInt8)
  /-- Inside a payload of which some bytes are `left`. -/
  | payload (left : Nat)
  deriving DecidableEq, Repr

/-- How a stream ended. -/
inductive Ending where
  /-- On the boundary of a frame, or without frames. -/
  | clean
  /-- Inside a frame. -/
  | truncated
  deriving DecidableEq, Repr

namespace Demuxer

/-- Nothing has been read. -/
def new : Demuxer := .undecided []

/-- What follows when `left` bytes of a payload are to come. -/
def awaiting (left : Nat) : Demuxer := if left = 0 then .header [] else .payload left

/-- What follows a header of which `seen` has been read. -/
def afterHeader (seen : List UInt8) : Demuxer :=
  if seen.length < headerLength then .header seen else awaiting (readLength (seen.drop 4))

/-- Read one byte: the new state and the payload bytes it yields. -/
def step (state : Demuxer) (b : UInt8) : Demuxer × List UInt8 :=
  match state with
  | .undecided seen =>
      let seen := seen ++ [b]
      if !beginsFrame seen then (.plain, seen)
      else if seen.length < headerLength then (.undecided seen, [])
      else (afterHeader seen, [])
  | .plain => (.plain, [b])
  | .header seen => (afterHeader (seen ++ [b]), [])
  | .payload left => (awaiting (left - 1), [b])

/-- Read bytes one after the other. -/
def feed (state : Demuxer) : List UInt8 → Demuxer × List UInt8
  | [] => (state, [])
  | b :: rest =>
      let (state, now) := state.step b
      let (state, later) := feed state rest
      (state, now ++ later)

/-- How the stream ends if it ends here. -/
def finish : Demuxer → Ending
  | .undecided _ => .clean
  | .plain => .clean
  | .header seen => if seen.isEmpty then .clean else .truncated
  | .payload _ => .truncated

/-- The bytes held back because they can begin a header; they are text if the stream ends here. -/
def pendingRaw : Demuxer → List UInt8
  | .undecided seen => seen
  | _ => []

theorem feed_append (state : Demuxer) (xs ys : List UInt8) :
    state.feed (xs ++ ys) =
      (((state.feed xs).1.feed ys).1, (state.feed xs).2 ++ ((state.feed xs).1.feed ys).2) := by
  induction xs generalizing state with
  | nil => simp [feed]
  | cons b xs ih => simp [feed, ih, List.append_assoc]

end Demuxer

end Dockboard.Stream
