set_option autoImplicit false

/-! # Buffers

The bytes of a stream are kept in a block of memory until they have been understood. Only as many
are read at a time as there is room for behind the ones that are there, and they are looked at
after each reading. So the room decides where a stream is cut before it is looked at:

- In the beginning, the room is the rest of the block.
- When bytes in front have been understood, the place they took is not used again until the end of
  the block has been reached.
- When lines have been joined and nothing follows, the room is one byte at a time.
-/

namespace Dockboard.Engine

/-- How many bytes a block holds in the beginning. -/
def usualBlock : Nat := 8192

/-- Bytes of a stream that have not been understood, in a block of memory. -/
structure Buffer where
  bytes : List UInt8 := []
  /-- How many bytes of the block are before them. -/
  start : Nat := 0
  /-- How many bytes behind them can be read into. -/
  room : Nat := usualBlock
  /-- How many bytes the block holds. -/
  block : Nat := usualBlock
  deriving DecidableEq, Repr, Inhabited

namespace Buffer

/-- Leave out the first `count` bytes, which have been understood. -/
def drop (b : Buffer) (count : Nat) : Buffer :=
  { b with bytes := b.bytes.drop count, start := b.start + count }

/-- Leave out all bytes, the place of which is used again. -/
def clear (b : Buffer) : Buffer := { b with bytes := [], room := b.room + b.bytes.length }

/-- Leave out the byte between the first `count` bytes and the ones that follow. With nothing
before it, there is nothing to move. Otherwise, a byte that follows alone takes its place; several
of them go to a new block, together with those before them. -/
def join (b : Buffer) (count : Nat) : Buffer :=
  let front := b.bytes.take count
  let rest := b.bytes.drop (count + 1)
  let bytes := front ++ rest
  if front.isEmpty then b.drop 1
  else if rest.length ≤ 1 then { b with bytes, room := 1 - rest.length }
  else
    let block := max usualBlock bytes.length
    { bytes, room := block - bytes.length, block }

/-- Make room for more bytes if there is none. It is one byte if the block does not end there.
Otherwise it is made by moving the bytes to the front of the block if they do not overlap with
their new place, and by doubling the block if they do. -/
def makeRoom (b : Buffer) : Buffer :=
  if 0 < b.room then b
  else if b.start + b.bytes.length < b.block then { b with room := 1 }
  else if b.bytes.length ≤ b.start then
    { b with start := 0, room := b.block - b.bytes.length }
  else { b with room := b.block, block := 2 * b.block }

/-- Read `byte` and as many of the bytes after it as there is room for. The others remain. -/
def read (b : Buffer) (byte : UInt8) (more : List UInt8) : Buffer × List UInt8 :=
  let b := b.makeRoom
  let taken := byte :: more.take (b.room - 1)
  ({ b with bytes := b.bytes ++ taken, room := b.room - taken.length }, more.drop (b.room - 1))

/-- Each reading leaves less to be read. -/
theorem read_length_lt (b : Buffer) (byte : UInt8) (more : List UInt8) :
    (b.read byte more).2.length < (byte :: more).length := by
  simp only [read, List.length_drop, List.length_cons]
  omega

end Buffer

end Dockboard.Engine
