import Dockboard.Engine.Buffer
import Dockboard.Engine.Exchange
import Dockboard.Engine.Schema.Basic
import Dockboard.Stream.Demuxer
import Dockboard.Text.Utf8

set_option autoImplicit false

/-! # Reading the daemon's answers

An answer tells by its status whether the request has been met. If it has not, its body says why.
If it has, the body is nothing of interest, a document, or a stream: of documents, each on a line
of its own, or of log frames.
-/

namespace Dockboard.Engine

open Dockboard.Stream Dockboard.Text
open Document (Reader)

/-- Whether this is the status of an answer. It has three digits; and a number below 200 announces
an answer that is still to come, unless it is 101. -/
def isFinal (status : Nat) : Bool := (200 ≤ status && status < 1000) || status == 101

/-- Whether a status means that the request has been met, that nothing was left to do, or that it
goes on in another way. -/
def isSuccess (status : Nat) : Bool :=
  (200 ≤ status && status < 300) || status == 304 || status == 101

/-- Whether an answer with this status ends with its head. -/
def isBodiless (status : Nat) : Bool := status == 204 || status == 304 || status == 101

/-- Why a request has not been met: the message in the body, or the body itself if it is no
document with a message. -/
def reason (status : Nat) (body : List UInt8) : Failure :=
  let text := Utf8.lossy body
  if text.isEmpty then .refused status ""
  else
    match Schema.errorMessage.runText text with
    | .ok document => .refused status (document.textAt "message")
    | .error .truncated => .garbled
    | .error _ => .refused status (String.ofList text)

namespace Reply

/-- The pieces of the body of an answer that met the request. -/
def accepted (reply : Reply) : Except Failure (List (List UInt8)) :=
  if !isFinal reply.status then .error .unanswered
  else if isSuccess reply.status then .ok (if isBodiless reply.status then [] else reply.pieces)
  else .error (reason reply.status reply.pieces.flatten)

/-- The document in an answer. -/
def document (reader : Reader Document) (reply : Reply) : Except Failure Document := do
  let pieces ← reply.accepted
  (reader.run pieces.flatten).mapError fun _ => .garbled

end Reply

/-! ## Streams of documents -/

/-- What is found at the beginning of the bytes that have arrived. -/
inductive Found where
  /-- A document, and what is left to be looked at. -/
  | document (document : Document) (left : Buffer)
  /-- No document as yet, and what is left to be looked at with more. -/
  | nothing (left : Buffer)
  /-- What is no document. -/
  | fault

/-- Look for a document on the first line in `buffer`, which need not be closed. A line that holds
no more than null or the beginning of a document is joined with the next one. -/
def findDocument (reader : Reader Document) (buffer : Buffer) : Found :=
  let line := buffer.bytes.takeWhile (· != 10)
  let closed := line.length < buffer.bytes.length
  let joined := if closed then buffer.join line.length else buffer
  match reader.orNull.run line with
  | .ok .nothing => .nothing joined
  | .ok document =>
      .document document (if closed then buffer.drop (line.length + 1) else buffer.clear)
  | .error .truncated => .nothing joined
  | .error _ => .fault

/-- The documents at the beginning of what is in `buffer`, which are fewer than `fuel`, and how it
goes on: with what is left, or not at all after what is no document. -/
def takeDocuments (reader : Reader Document) (buffer : Buffer) :
    Nat → List Document × Option Buffer
  | 0 => ([], some buffer)
  | fuel + 1 =>
      match findDocument reader buffer with
      | .document document left =>
          let (more, left) := takeDocuments reader left fuel
          (document :: more, left)
      | .nothing left => ([], some left)
      | .fault => ([], none)

/-- The documents in `buffer`, and how it goes on. -/
def allDocuments (reader : Reader Document) (buffer : Buffer) : List Document × Option Buffer :=
  takeDocuments reader buffer (buffer.bytes.length + 1)

/-- The documents that are found while a piece is read into `buffer`, and how it goes on. -/
def readDocuments (reader : Reader Document) (buffer : Buffer) :
    List UInt8 → List Document × Option Buffer
  | [] => ([], some buffer)
  | byte :: more =>
      let (here, left) := allDocuments reader (buffer.read byte more).1
      match left with
      | some left =>
          let (later, left) := readDocuments reader left (buffer.read byte more).2
          (here ++ later, left)
      | none => (here, none)
  termination_by piece => piece.length
  decreasing_by exact buffer.read_length_lt byte more

/-- The documents in `buffer` and the pieces that arrive after it. What is left at the end is
looked at once more, and must then be used up. -/
def documents (reader : Reader Document) (buffer : Buffer) :
    List (List UInt8) → List (Except Failure Document)
  | [] =>
      let (last, left) := allDocuments reader buffer
      last.map .ok ++
        match left with
        | some left => if left.bytes.isEmpty then [] else [.error .brokenOff]
        | none => [.error .garbled]
  | piece :: rest =>
      let (here, left) := readDocuments reader buffer piece
      here.map .ok ++
        match left with
        | some left => documents reader left rest
        | none => [.error .garbled]

/-- The stream of documents in an answer. -/
def Reply.documents (reader : Reader Document) (reply : Reply) :
    List (Except Failure Document) :=
  match reply.accepted with
  | .ok pieces => Engine.documents reader {} pieces
  | .error failure => [.error failure]

/-! ## Logs -/

/-- A part of a log: a frame, or a line outside frames. -/
structure LogPart where
  source : Source
  payload : List UInt8
  deriving DecidableEq, Repr

/-- The stream whose frames have the tag `tag`. -/
def sourceOf (tag : UInt8) : Source :=
  if tag = Source.stdin.tag then .stdin else if tag = Source.stderr.tag then .stderr else .stdout

/-- The parts of a log, which are at most `fuel`, and whether it breaks off. A log may end with a
header that promises what does not follow. -/
def logParts (bytes : List UInt8) : Nat → List LogPart × Bool
  | 0 => ([], !bytes.isEmpty)
  | fuel + 1 =>
      match bytes with
      | [] => ([], false)
      | tag :: _ =>
          if 2 < tag then
            let line := bytes.takeWhile (· != 10)
            if line.length = bytes.length then ([], true)
            else
              let (more, broken) := logParts (bytes.drop (line.length + 1)) fuel
              (⟨.stdout, line ++ [10]⟩ :: more, broken)
          else if bytes.length < headerLength then ([], true)
          else
            let length := readLength ((bytes.take headerLength).drop 4)
            let body := bytes.drop headerLength
            if body.length < length then ([], !body.isEmpty)
            else
              let (more, broken) := logParts (body.drop length) fuel
              (⟨sourceOf tag, body.take length⟩ :: more, broken)

/-- The log in an answer, in frames, without those that a process has read. -/
def Reply.log (reply : Reply) : List (Except Failure (List UInt8)) :=
  match reply.accepted with
  | .ok pieces =>
      let bytes := pieces.flatten
      let (parts, broken) := logParts bytes bytes.length
      let shown := parts.filter fun part => part.source != .stdin
      shown.map (fun part => .ok (encodeFrame part.source part.payload)) ++
        if broken then [.error .brokenOff] else []
  | .error failure => [.error failure]

end Dockboard.Engine
