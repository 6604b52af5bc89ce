import TracedEval.Config.Basic
import TracedEval.Fault
import TracedEval.Number.Layout
import TracedEval.Text.Quoted

/-!
# Configuration errors

What can be wrong with a configuration text, and what can keep a configuration from being used at
all.
-/

namespace TracedEval

/-- How a number is shown when it stands where something else was expected: always with a point or a
power of ten, positional from `0.00001` up to sixteen digits before the point. -/
def configNumber : NumberLayout where
  positionalAbove := -5
  positionalUpTo := 16
  wholeEnding := ".0"
  zero := "0.0"
  negativeZero := "-0.0"
  tie := .even

/-- A value met in a configuration text. -/
inductive FoundValue
  | null
  | boolean (b : Bool)
  | integer (n : Int)
  | float (x : Float)
  | string (s : String)
  | list
  | object

def FoundValue.text : FoundValue → String
  | null => "null"
  | boolean b => s!"boolean `{b}`"
  | integer n => s!"integer `{n}`"
  | float x => s!"floating point `{configNumber.write x}`"
  | string s => s!"string {Text.quoted s}"
  | list => "sequence"
  | object => "map"

/-- What a place in a configuration text asks for. -/
inductive WantedValue
  | count
  | flag
  | null
  | config
  deriving DecidableEq, Repr

def WantedValue.text : WantedValue → String
  | count => "usize"
  | flag => "a boolean"
  | null => "unit"
  | config => "struct RuntimeConfig"

/-- What is wrong at some place of a configuration text. -/
inductive ReadFault
  | endInValue
  | endInList
  | endInObject
  | endInString
  | expectedValue
  | expectedKeyword
  | expectedColon
  | expectedCommaOrObjectEnd
  | expectedCommaOrListEnd
  | keyNotString
  | trailingComma
  | trailingCharacters
  | invalidNumber
  | numberOutOfRange
  | invalidEscape
  | controlCharacter
  | loneSurrogate
  | surrogateWithoutEscape
  | unknownField (name : String)
  | duplicateField (field : ConfigField)
  | unknownFormat (name : String)
  | wrongType (found : FoundValue) (wanted : WantedValue)
  /-- A negative integer where a count was expected. -/
  | negativeCount (n : Int)

namespace ReadFault

/-- Names in backquotes, separated by a word or by commas. -/
def quotedNames (separator : String) (names : List String) : String :=
  separator.intercalate (names.map fun name => s!"`{name}`")

def message : ReadFault → String
  | endInValue => "EOF while parsing a value"
  | endInList => "EOF while parsing a list"
  | endInObject => "EOF while parsing an object"
  | endInString => "EOF while parsing a string"
  | expectedValue => "expected value"
  | expectedKeyword => "expected ident"
  | expectedColon => "expected `:`"
  | expectedCommaOrObjectEnd => "expected `,` or `\x7d`"
  | expectedCommaOrListEnd => "expected `,` or `]`"
  | keyNotString => "key must be a string"
  | trailingComma => "trailing comma"
  | trailingCharacters => "trailing characters"
  | invalidNumber => "invalid number"
  | numberOutOfRange => "number out of range"
  | invalidEscape => "invalid escape"
  | controlCharacter => "control character (\\u0000-\\u001F) found while parsing a string"
  | loneSurrogate => "lone leading surrogate in hex escape"
  | surrogateWithoutEscape => "unexpected end of hex escape"
  | unknownField name =>
    s!"unknown field `{name}`, expected one of " ++
      quotedNames ", " (ConfigField.all.map ConfigField.name)
  | duplicateField field => s!"duplicate field `{field.name}`"
  | unknownFormat name =>
    s!"unknown variant `{name}`, expected " ++
      quotedNames " or " (TraceFormat.all.map TraceFormat.name)
  | wrongType found wanted => s!"invalid type: {found.text}, expected {wanted.text}"
  | negativeCount n =>
    s!"invalid value: {(FoundValue.integer n).text}, expected {WantedValue.count.text}"

end ReadFault

/-- A fault in a configuration text and where it is. Lines count from one; a column counts the bytes
before it in its line. -/
structure ReadError where
  fault : ReadFault
  line : Nat
  column : Nat

def ReadError.message (e : ReadError) : String :=
  s!"{e.fault.message} at line {e.line} column {e.column}"

/-- Why a file could not be read as a text. -/
inductive FileError
  | notFound
  | isDirectory
  | notDirectory
  | nameTooLong
  | nulInName
  | invalidEncoding
  | other (text : String)
  deriving DecidableEq, Repr

def FileError.text : FileError → String
  | notFound => "No such file or directory (os error 2)"
  | isDirectory => "Is a directory (os error 21)"
  | notDirectory => "Not a directory (os error 20)"
  | nameTooLong => "File name too long (os error 36)"
  | nulInName => "file name contained an unexpected NUL byte"
  | invalidEncoding => "stream did not contain valid UTF-8"
  | other text => text

/-- Why a configuration cannot be used. -/
inductive ConfigError
  | unreadable (path : String) (error : FileError)
  | malformed (error : ReadError)
  | zeroDepth
  /-- The depth is outside the range that a launcher accepts. -/
  | depthOutOfRange (least greatest : Nat)

namespace ConfigError

def message : ConfigError → String
  | unreadable path error => s!"failed to read '{path}': {error.text}"
  | malformed error => error.message
  | zeroDepth => "max_call_depth must be at least 1"
  | depthOutOfRange least greatest =>
    s!"max call depth must be between {least} and {greatest}"

/-- How a configuration error with this message is shown. -/
def diagnosticOf (message : String) : Diagnostic where
  text := s!"invalid runtime configuration: {message}"
  code := some "lfrt::config"
  help := none
  cause := none
  related := none

def diagnostic (e : ConfigError) : Diagnostic := diagnosticOf e.message

def text (e : ConfigError) : String := e.diagnostic.text

end ConfigError

end TracedEval
