import TracedEval.Config.Scalar

/-!
# Reading a configuration

A configuration is a JSON object, or a list of the settings in their order. Settings are taken as
they come and the first thing wrong ends the reading. A setting is given at most once, which is also
why the reading of an object ends: each member takes one of the settings that are still open.
-/

namespace TracedEval

/-! ## Values of settings -/

/-- The fault of a value of the wrong type. The value is read first unless it is a list or an
object, so that a fault inside it comes before its type. -/
def misfit {α : Type} (wanted : WantedValue) (c : Cursor) : Reading α := do
  match c.rest with
  | 'n' :: _ =>
    let after ← readKeyword (c.drop 1) ['u', 'l', 'l']
    after.fault (.wrongType .null wanted)
  | 't' :: _ =>
    let after ← readKeyword (c.drop 1) ['r', 'u', 'e']
    after.fault (.wrongType (.boolean true) wanted)
  | 'f' :: _ =>
    let after ← readKeyword (c.drop 1) ['a', 'l', 's', 'e']
    after.fault (.wrongType (.boolean false) wanted)
  | '-' :: _ =>
    let (number, after) ← readNumber true (c.drop 1)
    after.fault (.wrongType number.found wanted)
  | '"' :: _ =>
    let (text, after) ← readString c
    after.fault (.wrongType (.string text) wanted)
  | '[' :: _ => c.fault (.wrongType .list wanted)
  | '\x7b' :: _ => c.fault (.wrongType .object wanted)
  | first :: _ =>
    if first.isDigit then
      let (number, after) ← readNumber false c
      after.fault (.wrongType number.found wanted)
    else c.faultAhead .expectedValue
  | [] => c.faultAhead .endInValue

/-- A number that was read as a count, at the place after it. -/
def countOf (number : ReadNumber) (after : Cursor) : Reading (Nat × Cursor) :=
  match number with
  | .count n => .ok (n, after)
  | .negative n => after.fault (.negativeCount n)
  | .float x => after.fault (.wrongType (.float x) .count)

/-- Reads a count below `2 ^ 64`. -/
def readCount (c : Cursor) : Reading (Nat × Cursor) := do
  let c := c.skipBlanks
  match c.rest with
  | '-' :: _ =>
    let (number, after) ← readNumber true (c.drop 1)
    countOf number after
  | first :: _ =>
    if first.isDigit then
      let (number, after) ← readNumber false c
      countOf number after
    else misfit .count c
  | [] => c.faultAhead .endInValue

/-- Reads `true` or `false`. -/
def readFlag (c : Cursor) : Reading (Bool × Cursor) := do
  let c := c.skipBlanks
  match c.rest with
  | 't' :: _ =>
    let after ← readKeyword (c.drop 1) ['r', 'u', 'e']
    pure (true, after)
  | 'f' :: _ =>
    let after ← readKeyword (c.drop 1) ['a', 'l', 's', 'e']
    pure (false, after)
  | _ => misfit .flag c

/-- Reads `null`. -/
def readNull (c : Cursor) : Reading Cursor :=
  let c := c.skipBlanks
  match c.rest with
  | 'n' :: _ => readKeyword (c.drop 1) ['u', 'l', 'l']
  | _ => misfit .null c

/-- Reads the colon after a key. -/
def readColon (c : Cursor) : Reading Cursor :=
  let c := c.skipBlanks
  match c.rest with
  | ':' :: _ => .ok (c.drop 1)
  | [] => c.faultAhead .endInObject
  | _ => c.faultAhead .expectedColon

/-- Reads the name of a trace format, starting at its opening quote. -/
def readFormatName (c : Cursor) : Reading (TraceFormat × Cursor) := do
  let (name, after) ← readString c
  match TraceFormat.ofName? name with
  | some format => pure (format, after)
  | none => after.fault (.unknownFormat name)

/-- Reads a trace format: its name, or an object whose only key is the name, with `null`. -/
def readFormat (c : Cursor) : Reading (TraceFormat × Cursor) := do
  let c := c.skipBlanks
  match c.rest with
  | '"' :: _ => readFormatName c
  | '\x7b' :: _ =>
    let key := (c.drop 1).skipBlanks
    match key.rest with
    | '"' :: _ =>
      let (format, c) ← readFormatName key
      let c ← readColon c
      let c ← readNull c
      let c := c.skipBlanks
      match c.rest with
      | '\x7d' :: _ => pure (format, c.drop 1)
      | [] => c.fault .endInObject
      | _ => c.fault .expectedValue
    | '\x7d' :: _ => key.faultAhead .expectedValue
    | [] => key.faultAhead .endInObject
    | _ => key.faultAhead .keyNotString
  | [] => c.faultAhead .endInValue
  | _ => c.faultAhead .expectedValue

/-- Reads the value of a setting into the configuration. -/
def readSetting (field : ConfigField) (config : Config) (c : Cursor) : Reading (Config × Cursor) :=
  match field with
  | .maxCallDepth => (readCount c).map fun (n, c) => ({ config with maxCallDepth := n }, c)
  | .echoOutput => (readFlag c).map fun (b, c) => ({ config with echoOutput := b }, c)
  | .captureOutput => (readFlag c).map fun (b, c) => ({ config with captureOutput := b }, c)
  | .traceFormat => (readFormat c).map fun (f, c) => ({ config with traceFormat := f }, c)

/-! ## Objects and lists -/

/-- The fault of a key that cannot be taken. It is located after the blanks that follow the key, and
after the end of the object if that comes next. -/
def keyFault {α : Type} (afterKey : Cursor) (f : ReadFault) : Reading α :=
  let c := afterKey.skipBlanks
  match c.rest with
  | '\x7d' :: _ => (c.drop 1).fault f
  | _ => c.fault f

/-- Goes to the key of the next member: `none` at the end of the object, which is not read. Members
after the first follow a comma. -/
def nextKey? (first : Bool) (c : Cursor) : Reading (Option Cursor) :=
  let c := c.skipBlanks
  match c.rest with
  | '\x7d' :: _ => .ok none
  | [] => c.faultAhead .endInObject
  | ',' :: _ =>
    if first then c.faultAhead .keyNotString
    else
      let c := (c.drop 1).skipBlanks
      match c.rest with
      | '"' :: _ => .ok (some c)
      | '\x7d' :: _ => c.faultAhead .trailingComma
      | [] => c.faultAhead .endInValue
      | _ => c.faultAhead .keyNotString
  | '"' :: _ =>
    if first then .ok (some c)
    else c.faultAhead .expectedCommaOrObjectEnd
  | _ =>
    c.faultAhead (if first then .keyNotString else .expectedCommaOrObjectEnd)

/-- Reads the members of an object and its end. `unset` are the settings not given so far. -/
def readMembers (unset : List ConfigField) (first : Bool) (config : Config) (c : Cursor) :
    Reading (Config × Cursor) := do
  match ← nextKey? first c with
  | none => pure (config, c.skipBlanks.drop 1)
  | some key =>
    let (name, afterKey) ← readString key
    match ConfigField.ofName? name with
    | none => keyFault afterKey (.unknownField name)
    | some field =>
      if field ∈ unset then
        let c ← readColon afterKey
        let (config, c) ← readSetting field config c
        readMembers (unset.erase field) false config c
      else keyFault afterKey (.duplicateField field)
termination_by unset.length
decreasing_by
  rename_i h
  have hpos := List.length_pos_of_mem h
  rw [List.length_erase_of_mem h]
  omega

/-- Reads the end of a list whose settings have all been read. -/
def readListEnd (c : Cursor) : Reading Cursor :=
  let c := c.skipBlanks
  match c.rest with
  | ']' :: _ => .ok (c.drop 1)
  | ',' :: _ =>
    let c := (c.drop 1).skipBlanks
    match c.rest with
    | ']' :: _ => c.faultAhead .trailingComma
    | _ => c.faultAhead .trailingCharacters
  | [] => c.faultAhead .endInList
  | _ => c.faultAhead .trailingCharacters

/-- Goes to the next element of a list: `none` at the end of the list, which is not read. Elements
after the first follow a comma. -/
def nextElement? (first : Bool) (c : Cursor) : Reading (Option Cursor) :=
  let c := c.skipBlanks
  match c.rest with
  | ']' :: _ => .ok none
  | [] => c.faultAhead .endInList
  | ',' :: _ =>
    if first then .ok (some c)
    else
      let c := (c.drop 1).skipBlanks
      match c.rest with
      | ']' :: _ => c.faultAhead .trailingComma
      | [] => c.faultAhead .endInValue
      | _ => .ok (some c)
  | _ =>
    if first then .ok (some c)
    else c.faultAhead .expectedCommaOrListEnd

/-- Reads the elements of a list and its end. `fields` are the settings still to come. -/
def readElements (fields : List ConfigField) (first : Bool) (config : Config) (c : Cursor) :
    Reading (Config × Cursor) := do
  match fields with
  | [] =>
    let c ← readListEnd c
    pure (config, c)
  | field :: fields =>
    match ← nextElement? first c with
    | none =>
      let c ← readListEnd c
      pure (config, c)
    | some c =>
      let (config, c) ← readSetting field config c
      readElements fields false config c

/-- Reads a whole text as a configuration. -/
def readConfig (text : String) : Reading Config := do
  let c := (Cursor.start text).skipBlanks
  let (config, c) ← match c.rest with
    | '\x7b' :: _ => readMembers ConfigField.all true {} (c.drop 1)
    | '[' :: _ => readElements ConfigField.all true {} (c.drop 1)
    | [] => c.faultAhead .endInValue
    | _ => misfit .config c
  let c := c.skipBlanks
  if c.rest.isEmpty then pure config
  else .error ⟨.trailingCharacters, c.offset + 1⟩

/-! ## Configurations -/

namespace Config

/-- The configuration that a text gives. A depth of zero is refused once the text has been read. -/
def parse (text : String) : Except ConfigError Config :=
  match readConfig text with
  | .error e =>
    let (line, column) := lineAndColumn (textBytes text) e.offset
    .error (.malformed ⟨e.fault, line, column⟩)
  | .ok config => if config.maxCallDepth = 0 then .error .zeroDepth else .ok config

/-- The configuration in a file, given the file's bytes or why they could not be had. -/
def ofFile (path : String) (content : Except FileError ByteArray) : Except ConfigError Config :=
  match content with
  | .error e => .error (.unreadable path e)
  | .ok bytes =>
    match String.fromUTF8? bytes with
    | some text => parse text
    | none => .error (.unreadable path .invalidEncoding)

end Config

end TracedEval
