import TracedEval.Config.Error

/-!
# Reading positions

A place in a text that is being read: what has not been read yet, and how many bytes have been.
Faults are located by such byte counts, so a cursor moves through characters and counts their bytes.
-/

namespace TracedEval

/-- How many bytes some characters take. -/
def byteCount : List Char → Nat
  | [] => 0
  | c :: cs => c.utf8Size + byteCount cs

/-- A place in a text. -/
structure Cursor where
  /-- How many bytes are behind. -/
  offset : Nat
  rest : List Char
  deriving DecidableEq, Repr

/-- A fault and the number of bytes before the place it is reported at. -/
structure Misread where
  fault : ReadFault
  offset : Nat

/-- Reading something, which may go wrong at some place. -/
abbrev Reading : Type → Type := Except Misread

/-- Whether a character may stand between the parts of a text. -/
def isBlank (c : Char) : Bool := c == ' ' || c == '\t' || c == '\n' || c == '\r'

namespace Cursor

/-- The beginning of a text. -/
def start (s : String) : Cursor := ⟨0, s.toList⟩

/-- The place after the next `n` characters. -/
def drop (c : Cursor) (n : Nat) : Cursor :=
  ⟨c.offset + byteCount (c.rest.take n), c.rest.drop n⟩

/-- The place after any blanks. -/
def skipBlanks (c : Cursor) : Cursor := c.drop (c.rest.takeWhile isBlank).length

/-- A fault found right here. -/
def fault {α : Type} (c : Cursor) (f : ReadFault) : Reading α := .error ⟨f, c.offset⟩

/-- A fault of the byte that comes next, if there is one. -/
def faultAhead {α : Type} (c : Cursor) (f : ReadFault) : Reading α :=
  .error ⟨f, if c.rest.isEmpty then c.offset else c.offset + 1⟩

/-- A fault that shows only once the next byte has been taken. -/
def faultAfterByte {α : Type} (c : Cursor) (f : ReadFault) : Reading α :=
  .error ⟨f, c.offset + 1⟩

end Cursor

/-- The line and the column of the place after `offset` bytes of a text. -/
def lineAndColumn (bytes : List UInt8) (offset : Nat) : Nat × Nat :=
  let newline := '\n'.toNat.toUInt8
  let before := bytes.take offset
  (before.count newline + 1, (before.reverse.takeWhile (· != newline)).length)

end TracedEval
