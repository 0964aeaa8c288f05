import RadioScan.Json.Tree
import RadioScan.Text.Quoted

/-!
# Decoding faults

Why a JSON text is not the text of a value, and how that is said. What is wrong with the syntax of
a text, and how far it had been read, is for the JSON library to tell: its notice is given from
outside wherever a fault is put into words.
-/

namespace RadioScan.Json

/-- What was met where something else was expected. -/
inductive Found
  | null
  | bool (b : Bool)
  | number (n : Number)
  | text (s : String)
  | array
  | object
  /-- The name of a variant without contents. -/
  | unitVariant
deriving DecidableEq

/-- What the library says of a text that is not JSON. -/
inductive SyntaxFault
  | endInList
  | endInObject
  | endInString
  | endInValue
  | endInEscape
  | noColon
  | noListEnd
  | noObjectEnd
  | noIdent
  | noValue
  | invalidEscape
  | invalidNumber
  | invalidCodePoint
  | loneSurrogate
  | controlCharacter
  | numberOutOfRange
  | keyNoString
  | trailingComma
  | trailingCharacters
  | tooDeep
deriving DecidableEq

/-- What the library knows about a fault: what is wrong with the syntax, if that is the fault, and
the line and the column up to which the text had been read, both counted from one. The line is zero
for a fault that has no place. -/
structure Notice where
  syntaxFault : SyntaxFault
  line : Nat
  column : Nat
deriving DecidableEq

/-- The notice on each text that has a fault. -/
abbrev Notices := String → Notice

inductive Fault
  /-- The text is not JSON, or has a shape that no value has. -/
  | malformed
  | mismatch (found : Found) (expected : String)
  | outOfRange (n : Int) (expected : String)
  | wrongLength (length : Nat) (expected : String)
  | missingField (name : String)
  | duplicateField (name : String)
  | unknownVariant (name : String) (known : List String)
deriving DecidableEq

/-- The value of a number, as it is named in a message. -/
def Number.describe (n : Number) : String :=
  match n.quantity with
  | .integer i => "integer `" ++ toString i ++ "`"
  | .double x => "floating point `" ++ Double.text x ++ "`"
  | .tooLarge => "number"

def Found.describe : Found → String
  | null => "null"
  | bool b => "boolean `" ++ toString b ++ "`"
  | number n => n.describe
  | text s => "string " ++ Text.quoted s
  | array => "sequence"
  | object => "map"
  | unitVariant => "unit variant"

/-- Names in backquotes: one alone, two with "or", more after "one of". -/
def alternatives (names : List String) : String :=
  match names.map fun name => "`" ++ name ++ "`" with
  | [] => "nothing"
  | [a] => a
  | [a, b] => a ++ " or " ++ b
  | all => "one of " ++ ", ".intercalate all

def SyntaxFault.message : SyntaxFault → String
  | endInList => "EOF while parsing a list"
  | endInObject => "EOF while parsing an object"
  | endInString => "EOF while parsing a string"
  | endInValue => "EOF while parsing a value"
  | endInEscape => "unexpected end of hex escape"
  | noColon => "expected `:`"
  | noListEnd => "expected `,` or `]`"
  | noObjectEnd => "expected `,` or `\x7d`"
  | noIdent => "expected ident"
  | noValue => "expected value"
  | invalidEscape => "invalid escape"
  | invalidNumber => "invalid number"
  | invalidCodePoint => "invalid unicode code point"
  | loneSurrogate => "lone leading surrogate in hex escape"
  | controlCharacter => "control character (\\u0000-\\u001F) found while parsing a string"
  | numberOutOfRange => "number out of range"
  | keyNoString => "key must be a string"
  | trailingComma => "trailing comma"
  | trailingCharacters => "trailing characters"
  | tooDeep => "recursion limit exceeded"

/-- A fault in words, without its place. -/
def Fault.message (n : Notice) : Fault → String
  | malformed => n.syntaxFault.message
  | mismatch found expected => "invalid type: " ++ found.describe ++ ", expected " ++ expected
  | outOfRange n expected => "invalid value: integer `" ++ toString n ++ "`, expected " ++ expected
  | wrongLength length expected => "invalid length " ++ toString length ++ ", expected " ++ expected
  | missingField name => "missing field `" ++ name ++ "`"
  | duplicateField name => "duplicate field `" ++ name ++ "`"
  | unknownVariant name known =>
    "unknown variant `" ++ name ++ "`, expected " ++ alternatives known

/-- The place of a fault, as it stands behind the message. -/
def Notice.place (n : Notice) : String :=
  if n.line = 0 then "" else s!" at line {n.line} column {n.column}"

/-- A fault in words, with its place. -/
def Fault.report (n : Notice) (fault : Fault) : String := fault.message n ++ n.place

end RadioScan.Json
