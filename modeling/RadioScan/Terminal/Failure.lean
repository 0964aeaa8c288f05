import RadioScan.Format.Config
import RadioScan.Text.Numeral
import RadioScan.Terminal.Arguments
import RadioScan.Terminal.SystemError

/-!
# Failures

Everything that can end a command early, and how it is written on the error stream.
-/

namespace RadioScan.Terminal

inductive Failure
  | stop (s : Stop)
  | numeral (e : Text.NumeralError)
  | file (e : SystemError)
  | configFile (path : String) (e : SystemError)
  | config (e : ConfigError)
  | configJson (fault : Json.Fault) (notice : Json.Notice)
  | json (fault : Json.Fault) (notice : Json.Notice)
  | network (e : SystemError)
  /-- The service closed the connection before it answered. -/
  | closed
deriving DecidableEq

/-- A name with named values in braces. -/
def structText (name : String) (fields : List (String × String)) : String :=
  name ++ " \x7b " ++ ", ".intercalate (fields.map fun f => f.1 ++ ": " ++ f.2) ++ " \x7d"

/-- A name with a value in parentheses. -/
def tupleText (name value : String) : String := name ++ "(" ++ value ++ ")"

def numeralText (e : Text.NumeralError) : String :=
  structText "ParseIntError" [("kind", match e with
    | .empty => "Empty"
    | .invalidDigit => "InvalidDigit"
    | .tooLarge => "PosOverflow")]

def systemText (e : SystemError) : String :=
  structText "Os" [("code", toString e.code), ("kind", e.kind),
    ("message", Text.quoted e.message)]

def jsonText (fault : Json.Fault) (n : Json.Notice) : String :=
  tupleText "Error" s!"{Text.quoted (fault.message n)}, line: {n.line}, column: {n.column}"

def periodTableText : PeriodTableError → String
  | .empty => "Empty"
  | .tooManyEntries length =>
    structText "TooManyEntries"
      [("len", toString length), ("max", toString PeriodTable.maxEntries)]
  | .zeroPeriod index => structText "ZeroPeriod" [("index", toString index)]
  | .notGeometric index period previous =>
    structText "NotGeometric" [("index", toString index), ("period_ms", toString period),
      ("previous_ms", toString previous)]

def configText : ConfigError → String
  | .limit e =>
    structText "InvalidLimit" [("name", Text.quoted e.name), ("value", toString e.value),
      ("min", "1"), ("max", toString e.greatest)]
  | .periods e => tupleText "PeriodTable" (periodTableText e)
  | .catalog e => tupleText "InvalidCatalog" (Text.quoted e.message)

/-- What is written on the error stream; help and version are no errors. -/
def Failure.text : Failure → String
  | stop .usage => "<usage>"
  | stop .help => ""
  | stop .version => ""
  | numeral e => "Error: " ++ numeralText e
  | file e => "Error: " ++ systemText e
  | configFile path e =>
    "Error: " ++ structText "Io" [("path", Text.quoted path), ("source", systemText e)]
  | config e => "Error: " ++ configText e
  | configJson fault n => "Error: " ++ tupleText "Parse" (jsonText fault n)
  | json fault n => "Error: " ++ jsonText fault n
  | network e => "Error: " ++ systemText e
  | closed => "Error: " ++ Text.quoted "connection closed before a response arrived"

end RadioScan.Terminal
