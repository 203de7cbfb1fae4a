import Portability.Record

/-! Writing records to a destination that may run out of room. -/
namespace Portability

structure Sink where
  /-- The bytes that it takes altogether; without a number there is no end. -/
  room : Option Nat
  text : String := ""
  deriving Repr

namespace Sink

def write? (s : Sink) (text : String) : Option Sink :=
  let full := match s.room with
    | some room => decide (room < s.text.utf8ByteSize + text.utf8ByteSize)
    | none => false
  if full then none else some { s with text := s.text ++ text }

/-- The sink passes on what it holds; one without any room cannot. -/
def flushes (s : Sink) : Bool := s.room != some 0

end Sink

structure Writer where
  sink : Sink
  /-- The name of the destination in errors. -/
  path : String
  /-- The number of records written in full. -/
  written : Nat := 0
  deriving Repr

namespace Writer

/-- The writer with one more record, or with as much of it as there was room for and the error. The
record and the end of its line are written one after the other. -/
def write (w : Writer) (record : String) : Writer × Option Error :=
  match w.sink.write? record with
  | none => (w, some (.unwritable w.path))
  | some sink =>
    match sink.write? "\n" with
    | none => ({ w with sink }, some (.unwritable w.path))
    | some sink => ({ w with sink, written := w.written + 1 }, none)

/-- The writer with more records, up to the first error. -/
def writeAll (w : Writer) : List String → Writer × Option Error
  | [] => (w, none)
  | record :: rest =>
    match w.write record with
    | (w, none) => w.writeAll rest
    | failed => failed

def emit (w : Writer) (application file : String) (f : Finding) : Writer × Option Error :=
  match Record.encode application file f with
  | .ok record => w.write record
  | .error e => (w, some e)

def flushError? (w : Writer) : Option Error :=
  if w.sink.flushes then none else some (.unwritable w.path)

end Writer

end Portability
