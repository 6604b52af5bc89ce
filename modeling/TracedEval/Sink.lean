/-!
# Sinks

Where lines are echoed to: something that takes bytes and may stop taking them. A sink has room for
some number of bytes and for some number of flushes; it takes what fits and refuses the rest.
-/

namespace TracedEval

/-- Why a channel refused. -/
inductive ChannelCause
  | brokenPipe
  | permissionDenied
  | writeZero
  | other
  deriving DecidableEq, Repr

/-- A refused write or flush. -/
structure ChannelError where
  cause : ChannelCause
  text : String
  deriving DecidableEq, Repr

/-- The error of a channel that takes no more bytes without saying why. -/
def ChannelError.writeZero : ChannelError :=
  ⟨.writeZero, "failed to write whole buffer"⟩

/-- The bytes of a text. -/
def textBytes (s : String) : List UInt8 := s.toUTF8.data.toList

/-- A sink and what it has received. -/
structure Sink where
  /-- How many more bytes it takes; no bound if `none`. -/
  room : Option Nat
  /-- How many more flushes succeed; no bound if `none`. -/
  flushes : Option Nat
  /-- What it says when it refuses. -/
  error : ChannelError
  /-- Whether it refuses bytes by taking none of them instead of failing. -/
  stalls : Bool
  received : List UInt8
  deriving DecidableEq, Repr

namespace Sink

/-- A sink that takes everything. -/
def unlimited : Sink where
  room := none
  flushes := none
  error := ⟨.brokenPipe, "closed"⟩
  stalls := false
  received := []

/-- Writes the bytes; what fits is taken even if the rest is refused. -/
def write (sink : Sink) (bytes : List UInt8) : Sink × Option ChannelError :=
  match sink.room with
  | none => ({ sink with received := sink.received ++ bytes }, none)
  | some room =>
    if bytes.length ≤ room then
      ({ sink with room := some (room - bytes.length), received := sink.received ++ bytes }, none)
    else
      ({ sink with room := some 0, received := sink.received ++ bytes.take room },
        some (if sink.stalls then .writeZero else sink.error))

/-- Asks the sink to pass on what it has taken. -/
def flush (sink : Sink) : Sink × Option ChannelError :=
  match sink.flushes with
  | none => (sink, none)
  | some 0 => (sink, some sink.error)
  | some (left + 1) => ({ sink with flushes := some left }, none)

/-- Writes a line with its newline, then flushes. -/
def writeLine (sink : Sink) (line : String) : Sink × Option ChannelError :=
  match sink.write (textBytes line ++ textBytes "\n") with
  | (sink, none) => sink.flush
  | (sink, some error) => (sink, some error)

end Sink

end TracedEval
