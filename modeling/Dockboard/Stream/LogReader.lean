import Dockboard.Stream.Demuxer
import Dockboard.Stream.Feed
import Dockboard.Text.Utf8

set_option autoImplicit false

/-! # Reading logs

A log reader takes the frames off a stream of bytes and decodes what they carry as UTF-8. Each
read yields some text, or says how the stream ended; once it has ended it is not read again.
-/

namespace Dockboard.Stream

open Dockboard.Text

/-- A log and how far it has been read. -/
structure LogReader where
  source : Feed (List UInt8)
  demuxer : Demuxer := .new
  /-- The beginning of a character whose other bytes have not arrived. -/
  held : List UInt8 := []
  finished : Bool := false

/-- What a read of a log yields. -/
inductive LogRead where
  | text (text : List Char)
  | ended
  | failed (message : String)
  /-- Neither text nor an end will come. -/
  | silence
  deriving DecidableEq, Repr

namespace LogReader

/-- The text that remains to be read when the stream ends. -/
def tailText (demuxer : Demuxer) (held : List UInt8) : List Char :=
  let (held, text) := Utf8.feed held demuxer.pendingRaw
  text ++ Utf8.flush held

/-- Read on until there is text or the stream ends. -/
def readFrom (endless : Bool) (demuxer : Demuxer) (held : List UInt8) :
    List (Except Failure (List UInt8)) → LogRead × LogReader
  | [] =>
      if endless then (.silence, ⟨⟨[], endless⟩, demuxer, held, false⟩)
      else
        let tail := tailText demuxer held
        (if tail.isEmpty then .ended else .text tail, ⟨.empty, demuxer, [], true⟩)
  | .error failure :: rest => (.failed failure.message, ⟨⟨rest, endless⟩, demuxer, held, true⟩)
  | .ok bytes :: rest =>
      let (demuxer, payload) := demuxer.feed bytes
      let (held, text) := Utf8.feed held payload
      if text.isEmpty then readFrom endless demuxer held rest
      else (.text text, ⟨⟨rest, endless⟩, demuxer, held, false⟩)

/-- The next text of a log, or how it ends, and the reader for what follows. -/
def next (reader : LogReader) : LogRead × LogReader :=
  if reader.finished then (.ended, reader)
  else readFrom reader.source.endless reader.demuxer reader.held reader.source.items

/-- All the text of a log that ends after fewer than `fuel` reads, and why it ends if that is a
failure. -/
def drain (reader : LogReader) : Nat → List Char × Option String
  | 0 => ([], none)
  | fuel + 1 =>
      match reader.next with
      | (.text text, rest) =>
          let (more, failure) := drain rest fuel
          (text ++ more, failure)
      | (.failed message, _) => ([], some message)
      | (.ended, _) | (.silence, _) => ([], none)

/-- All the text of a log, and why it ends if that is a failure. -/
def all (source : Feed (List UInt8)) : List Char × Option String :=
  drain { source } (source.items.length + 3)

end LogReader

end Dockboard.Stream
