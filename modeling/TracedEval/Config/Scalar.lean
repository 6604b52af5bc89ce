import TracedEval.Config.Cursor

/-!
# Scalars of a configuration text

Keywords, strings and numbers. Every function here starts at the first character that belongs to the
scalar, or right after it where the doc comment says so.
-/

namespace TracedEval

/-! ## Keywords -/

/-- Reads the characters of a keyword. -/
def readKeyword (c : Cursor) (keyword : List Char) : Reading Cursor :=
  match keyword with
  | [] => .ok c
  | k :: keyword =>
    match c.rest with
    | [] => .error ⟨.endInValue, c.offset⟩
    | d :: _ =>
      if d = k then readKeyword (c.drop 1) keyword else .error ⟨.expectedKeyword, c.offset + 1⟩

/-! ## Strings -/

/-- The value of a hexadecimal digit of either case. -/
def hexDigit? (c : Char) : Option Nat :=
  if '0' ≤ c ∧ c ≤ '9' then some (c.toNat - '0'.toNat)
  else if 'a' ≤ c ∧ c ≤ 'f' then some (c.toNat - 'a'.toNat + 10)
  else if 'A' ≤ c ∧ c ≤ 'F' then some (c.toNat - 'A'.toNat + 10)
  else none

/-- The number that hexadecimal digits write. -/
def hexNumber? (cs : List Char) : Option Nat :=
  cs.foldlM (fun n c => (hexDigit? c).map (n * 16 + ·)) 0

/-- Reads the four bytes of a code unit; they are taken whatever they are. -/
def readCodeUnit (offset : Nat) (rest : List Char) : Reading Nat :=
  let four := rest.take 4
  if byteCount four < 4 then .error ⟨.endInString, offset + byteCount four⟩
  else
    match hexNumber? four with
    | some n => .ok n
    | none => .error ⟨.invalidEscape, offset + 4⟩

def isLeadingSurrogate (n : Nat) : Bool := 0xD800 ≤ n && n ≤ 0xDBFF

def isTrailingSurrogate (n : Nat) : Bool := 0xDC00 ≤ n && n ≤ 0xDFFF

/-- The character beyond the first plane that two surrogates make. -/
def surrogatePair (leading trailing : Nat) : Char :=
  Char.ofNat (0x10000 + (leading - 0xD800) * 0x400 + (trailing - 0xDC00))

/-- Reads what follows the letter of a numeric escape: one code unit, or two that make a pair. Also
gives the number of characters read. -/
def readNumericEscape (offset : Nat) (rest : List Char) : Reading (Char × Nat) := do
  let unit ← readCodeUnit offset rest
  if isTrailingSurrogate unit then
    .error ⟨.loneSurrogate, offset + 4⟩
  else if isLeadingSurrogate unit then
    match rest.drop 4 with
    | [] => .error ⟨.endInString, offset + 4⟩
    | ['\\'] => .error ⟨.endInString, offset + 5⟩
    | '\\' :: 'u' :: second =>
      let trailing ← readCodeUnit (offset + 6) second
      if isTrailingSurrogate trailing then .ok (surrogatePair unit trailing, 10)
      else .error ⟨.loneSurrogate, offset + 10⟩
    | '\\' :: _ => .error ⟨.surrogateWithoutEscape, offset + 6⟩
    | _ => .error ⟨.surrogateWithoutEscape, offset + 5⟩
  else
    .ok (Char.ofNat unit, 4)

/-- Reads what follows a backslash. Also gives the number of characters read. -/
def readEscape (offset : Nat) (rest : List Char) : Reading (Char × Nat) :=
  match rest with
  | [] => .error ⟨.endInString, offset⟩
  | '"' :: _ => .ok ('"', 1)
  | '\\' :: _ => .ok ('\\', 1)
  | '/' :: _ => .ok ('/', 1)
  | 'b' :: _ => .ok ('\x08', 1)
  | 'f' :: _ => .ok ('\x0c', 1)
  | 'n' :: _ => .ok ('\n', 1)
  | 'r' :: _ => .ok ('\r', 1)
  | 't' :: _ => .ok ('\t', 1)
  | 'u' :: digits => (readNumericEscape (offset + 1) digits).map fun (c, n) => (c, n + 1)
  | _ => .error ⟨.invalidEscape, offset + 1⟩

/-- Reads the characters of a string up to its closing quote, which is read too. -/
def readStringRest (offset : Nat) (rest : List Char) : Reading (List Char × Cursor) :=
  match rest with
  | [] => .error ⟨.endInString, offset⟩
  | '"' :: rest => .ok ([], ⟨offset + 1, rest⟩)
  | '\\' :: rest =>
    match readEscape (offset + 1) rest with
    | .error e => .error e
    | .ok (c, n) =>
      (readStringRest (offset + 1 + byteCount (rest.take n)) (rest.drop n)).map
        fun (cs, after) => (c :: cs, after)
  | c :: rest =>
    if c.toNat < 0x20 then .error ⟨.controlCharacter, offset + 1⟩
    else (readStringRest (offset + c.utf8Size) rest).map fun (cs, after) => (c :: cs, after)
termination_by rest.length
decreasing_by all_goals simp only [List.length_drop, List.length_cons]; omega

/-- Reads a string, starting at its opening quote. -/
def readString (c : Cursor) : Reading (String × Cursor) :=
  let inside := c.drop 1
  (readStringRest inside.offset inside.rest).map fun (cs, after) => (String.ofList cs, after)

/-! ## Numbers -/

/-- A number of a configuration text. Counting numbers below `2 ^ 64` and negative integers from
`-2 ^ 63` on are kept exactly; all others, negative zero among them, are doubles. -/
inductive ReadNumber
  | count (n : Nat)
  | negative (n : Int)
  | float (x : Float)

/-- The number as a value that was met. -/
def ReadNumber.found : ReadNumber → FoundValue
  | count n => .integer n
  | negative n => .integer n
  | float x => .float x

/-- The digits that can still be added to a significand of 64 bits: the significand with them, how
many they are, and what is left. -/
def takeSignificand (significand : Nat) : List Char → Nat × Nat × List Char
  | [] => (significand, 0, [])
  | c :: rest =>
    let extended := significand * 10 + (c.toNat - '0'.toNat)
    if c.isDigit ∧ extended < UInt64.size then
      let (total, taken, left) := takeSignificand extended rest
      (total, taken + 1, left)
    else (significand, 0, c :: rest)

/-- The greatest exponent for which a power of ten is a double. -/
def greatestPower : Nat := 308

/-- Scales a significand by a power of ten with a single rounded multiplication or division, after
divisions by the greatest power as long as the exponent is below its negative. `none` if the result
is infinite. -/
def scaleByTen (x : Float) (exponent : Int) : Option Float :=
  if exponent.natAbs ≤ greatestPower then
    let power := Float.ofScientific 1 false exponent.natAbs
    if 0 ≤ exponent then
      let scaled := x * power
      if scaled.isInf then none else some scaled
    else some (x / power)
  else if x == 0 then some x
  else if 0 ≤ exponent then none
  else scaleByTen (x / Float.ofScientific 1 false greatestPower) (exponent + greatestPower)
termination_by exponent.natAbs
decreasing_by simp only [greatestPower] at *; omega

/-- The double with this significand and power of ten, signed. -/
def readFloat (negative : Bool) (significand : Nat) (exponent : Int) (after : Cursor) :
    Reading (ReadNumber × Cursor) :=
  match scaleByTen (Float.ofNat significand) exponent with
  | some x => .ok (.float (if negative then -x else x), after)
  | none => after.fault .numberOutOfRange

/-- The digits of an exponent that fit 32 signed bits: their value, how many they are, and whether
the next digit no longer fits. -/
def takeExponent (value taken : Nat) : List Char → Nat × Nat × Bool
  | [] => (value, taken, false)
  | c :: rest =>
    if c.isDigit then
      let extended := value * 10 + (c.toNat - '0'.toNat)
      if extended < UInt32.size / 2 then takeExponent extended (taken + 1) rest
      else (value, taken, true)
    else (value, taken, false)

/-- The place after any digits. -/
def Cursor.skipDigits (c : Cursor) : Cursor := c.drop (c.rest.takeWhile Char.isDigit).length

/-- Reads what follows the letter of a power of ten. -/
def readPower (negative : Bool) (significand : Nat) (exponent : Int) (c : Cursor) :
    Reading (ReadNumber × Cursor) :=
  let (down, c) := match c.rest with
    | '+' :: _ => (false, c.drop 1)
    | '-' :: _ => (true, c.drop 1)
    | _ => (false, c)
  match c.rest with
  | [] => c.fault .endInValue
  | first :: _ =>
    if !first.isDigit then c.faultAfterByte .invalidNumber
    else
      let (power, taken, overflow) := takeExponent 0 0 c.rest
      if overflow then
        if significand ≠ 0 ∧ !down then (c.drop (taken + 1)).fault .numberOutOfRange
        else .ok (.float (if negative then -0.0 else 0.0), c.skipDigits)
      else
        let exponent := if down then exponent - power else exponent + power
        readFloat negative significand exponent (c.drop taken)

/-- Reads the power of ten of a number, if it has one. -/
def readPower? (negative : Bool) (significand : Nat) (exponent : Int) (c : Cursor) :
    Reading (ReadNumber × Cursor) :=
  match c.rest with
  | 'e' :: _ | 'E' :: _ => readPower negative significand exponent (c.drop 1)
  | _ => readFloat negative significand exponent c

/-- Reads what follows the point of a number. Digits beyond the significand are read over. -/
def readFraction (negative : Bool) (significand : Nat) (exponent : Int) (c : Cursor) :
    Reading (ReadNumber × Cursor) :=
  match c.rest with
  | [] => c.faultAhead .endInValue
  | first :: _ =>
    if !first.isDigit then c.faultAhead .invalidNumber
    else
      let (significand, taken, _) := takeSignificand significand c.rest
      readPower? negative significand (exponent - taken) c.skipDigits

/-- Reads what follows the whole part of a number. -/
def readAfterWhole (negative : Bool) (significand : Nat) (c : Cursor) :
    Reading (ReadNumber × Cursor) :=
  match c.rest with
  | '.' :: _ => readFraction negative significand 0 (c.drop 1)
  | 'e' :: _ | 'E' :: _ => readPower negative significand 0 (c.drop 1)
  | _ =>
    if !negative then .ok (.count significand, c)
    else if significand = 0 ∨ UInt64.size / 2 < significand then
      .ok (.float (-Float.ofNat significand), c)
    else .ok (.negative (-significand), c)

/-- Reads what follows the part of a whole number that fits the significand: its other digits, each
of which counts as a power of ten, and then a fraction or a power. -/
def readLongWhole (negative : Bool) (significand : Nat) (c : Cursor) :
    Reading (ReadNumber × Cursor) :=
  let after := c.skipDigits
  let exponent := (c.rest.takeWhile Char.isDigit).length
  match after.rest with
  | '.' :: _ => readFraction negative significand exponent (after.drop 1)
  | _ => readPower? negative significand exponent after

/-- Reads a number, starting after its sign. -/
def readNumber (negative : Bool) (c : Cursor) : Reading (ReadNumber × Cursor) :=
  match c.rest with
  | [] => c.fault .endInValue
  | '0' :: rest =>
    if (rest.head?.any Char.isDigit) then (c.drop 1).faultAhead .invalidNumber
    else readAfterWhole negative 0 (c.drop 1)
  | first :: _ =>
    if !first.isDigit then c.faultAfterByte .invalidNumber
    else
      let (significand, taken, left) := takeSignificand 0 c.rest
      if left.head?.any Char.isDigit then readLongWhole negative significand (c.drop taken)
      else readAfterWhole negative significand (c.drop taken)

end TracedEval
