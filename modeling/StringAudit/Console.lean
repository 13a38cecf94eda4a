/-!
# Streams of bytes

A run writes to streams of bytes.  A stream may have a text layer above it, which holds text back until it
is flushed; sending bytes flushes it first, so that the bytes of a stream stay in the order in which they
were written.
-/

namespace StringAudit

/-- A stream of bytes under a text layer. -/
structure Stream where
  /-- The bytes that have been sent. -/
  sent : List UInt8 := []
  /-- The bytes of the text that the text layer holds back. -/
  held : List UInt8 := []
  deriving DecidableEq, Repr

namespace Stream

/-- Send what the text layer holds back. -/
def flush (s : Stream) : Stream :=
  ⟨s.sent ++ s.held, []⟩

/-- Send bytes after all that was written before. -/
def send (s : Stream) (bytes : List UInt8) : Stream :=
  ⟨s.flush.sent ++ bytes, []⟩

/-- Write bytes through the text layer. -/
def hold (s : Stream) (bytes : List UInt8) : Stream :=
  { s with held := s.held ++ bytes }

end Stream

/-- The streams of a run. -/
inductive Outlet
  /-- Standard output. -/
  | out
  /-- Standard error. -/
  | err
  /-- A stream of its own for diagnostics. -/
  | aside
  deriving DecidableEq, Repr

/-- The streams by their outlets. -/
structure Console where
  out : Stream := {}
  err : Stream := {}
  aside : Stream := {}
  deriving DecidableEq, Repr

namespace Console

/-- The stream at an outlet. -/
def stream (c : Console) : Outlet → Stream
  | .out => c.out
  | .err => c.err
  | .aside => c.aside

/-- Change the stream at an outlet. -/
def change (c : Console) (outlet : Outlet) (f : Stream → Stream) : Console :=
  match outlet with
  | .out => { c with out := f c.out }
  | .err => { c with err := f c.err }
  | .aside => { c with aside := f c.aside }

end Console

end StringAudit
