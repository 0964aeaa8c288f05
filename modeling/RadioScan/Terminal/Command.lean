import RadioScan.Control.Message
import RadioScan.Terminal.Failure
import RadioScan.Text.Blank

/-!
# Commands

The commands of the tool, and how a command line names one.
-/

namespace RadioScan.Terminal

open Control (Message)

inductive Command
  /-- Computes a schedule for the requests in a file, under the configuration in another. -/
  | plan (requests : String) (config : Option String)
  | periods
  | channels (b : Band)
  /-- Sends a message to the service and shows the answer. -/
  | send (m : Message)
deriving DecidableEq

/-- A command with where the service is and how to print. -/
structure Invocation where
  host : String
  port : UInt16
  json : Bool
  command : Command
deriving DecidableEq

/-- Options that may stand before or behind the subcommand. -/
def commonOptions : List Opt :=
  [⟨"host", some 'h', some "127.0.0.1", []⟩, ⟨"port", some 'p', some "7070", []⟩,
    ⟨"format", some 'f', some "table", ["json", "table"]⟩]

def bandNames : List String := ["all", "24", "5", "dfs", "5-dfs", "both", "both-dfs"]

/-- The band that a name on the command line stands for. -/
def bandNamed : String → Band
  | "24" => ⟨1⟩
  | "5" => ⟨2⟩
  | "dfs" => ⟨4⟩
  | "5-dfs" => ⟨6⟩
  | "both" => ⟨3⟩
  | "both-dfs" => ⟨7⟩
  | _ => .unspecified

def subcommandNames : List String :=
  ["plan", "periods", "channels", "register", "unregister", "schedule", "limits", "stats"]

/-- The subcommand that tells about the others. -/
def helpName : String := "help"

/-- The grammar in front of the subcommand. -/
def topGrammar : Grammar := ⟨commonOptions, [], none, 0, helpName :: subcommandNames⟩

/-- Help is about the tool, or about one subcommand. -/
def helpStop : List String → Stop
  | [] => .help
  | [name] => if name ∈ helpName :: subcommandNames then .help else .usage
  | _ => .usage

def planConfig : Opt := ⟨"config", some 'c', none, []⟩

/-- An option that has a long name only. -/
def longOption (name : String) (choices : List String) : Opt := ⟨name, none, none, choices⟩

def registerOptions : List Opt :=
  [longOption "client" [], longOption "period" [], longOption "band" bandNames,
    longOption "channels" [], longOption "max-period" [], longOption "steps" [],
    longOption "cache" [], longOption "bssids" []]

/-- The grammar behind each subcommand. -/
def subGrammar (name : String) : Grammar :=
  match name with
  | "plan" => ⟨commonOptions ++ [planConfig], [], none, 1, []⟩
  | "channels" => ⟨commonOptions, [], none, 1, []⟩
  | "register" => ⟨commonOptions ++ registerOptions, ["full-results", "no-batch"], none, 0, []⟩
  | "unregister" => ⟨commonOptions, [], none, 1, []⟩
  | _ => ⟨commonOptions, [], none, 0, []⟩

/-- The value of an option without a standard value. -/
def Given.named? (given : Given) (name : String) : Option String :=
  given.value? (longOption name [])

/-- What a subcommand asks of its arguments beyond the grammar. -/
def isComplete (name : String) (given : Given) : Bool :=
  match name with
  | "plan" => given.positionals.length == 1
  | "unregister" => given.positionals.length == 1
  | "channels" => given.positionals.all bandNames.contains
  | "register" =>
    given.uses "client" && given.uses "period" &&
      !(given.uses "band" && given.uses "channels") &&
      (!given.uses "max-period" || given.uses "steps") &&
      match (given.named? "period").map Text.readUInt32 with
      | some (.ok p) => 0 < p
      | _ => false
  | _ => true

/-- Reads a number that the user typed. -/
def numeral {α : Type} (read : String → Except Text.NumeralError α) (s : String) :
    Except Failure α :=
  match read s with
  | .ok a => .ok a
  | .error e => .error (.numeral e)

/-- Reads numbers one after the other. -/
def numerals : List String → Except Failure (List UInt32)
  | [] => .ok []
  | s :: ss => do
    let n ← numeral Text.readUInt32 (Text.trim s)
    let ns ← numerals ss
    return n :: ns

/-- A number that may be missing. -/
def numeral? : Option String → Except Failure (Option UInt32)
  | none => .ok none
  | some s => (numeral Text.readUInt32 s).map some

/-- The events of a request that is registered from the command line. -/
def eventsOf (given : Given) : ReportEvents :=
  let events := ReportEvents.eachScan
  let events := if "full-results" ∈ given.flags then events.union .fullResults else events
  if "no-batch" ∈ given.flags then events.union .noBatch else events

/-- The request that the arguments of a registration describe. -/
def requestOf (given : Given) : Except Failure Request := do
  let scope ← match given.named? "channels" with
    | some list => do pure (Scope.channels (← numerals (list.splitOn ",")))
    | none => pure (Scope.band (bandNamed ((given.named? "band").getD "all")))
  let period ← numeral Text.readUInt32 ((given.named? "period").getD "")
  let plain := (Request.ofScope scope period).withEvents (eventsOf given)
  let request ← match given.named? "max-period" with
    | none => pure plain
    | some greatest => do
      let steps ← numeral Text.readUInt32 ((given.named? "steps").getD "0")
      pure (plain.withBackoff (← numeral Text.readUInt32 greatest) steps)
  let request := match ← numeral? (given.named? "cache") with
    | none => request
    | some n => request.withMaxScansToCache n
  match ← numeral? (given.named? "bssids") with
  | none => return request
  | some n => return request.withBssidsPerScan n

/-- The command that a subcommand's arguments describe. -/
def commandOf (name : String) (given : Given) : Except Failure Command :=
  let first := given.positionals.head?
  match name with
  | "plan" => .ok (.plan (first.getD "") (given.named? "config"))
  | "periods" => .ok .periods
  | "channels" => .ok (.channels (bandNamed (first.getD "all")))
  | "register" => do
    return .send (.register ((given.named? "client").getD "") (← requestOf given))
  | "unregister" => do
    return .send (.unregister (← numeral Text.readUInt32 (first.getD "")))
  | "schedule" => .ok (.send .getSchedule)
  | "limits" => .ok (.send .getLimits)
  | "stats" => .ok (.send .getStats)
  | _ => .error (.stop .usage)

/-- The value of a common option: behind the subcommand if it is used there, else in front. -/
def commonValue (top sub : Given) (name : String) : String :=
  match commonOptions.find? fun o => o.name == name with
  | none => ""
  | some o => ((if sub.uses name then sub.value? o else top.value? o)).getD ""

/-- A command line that fits: the subcommand, and what is given in front of it and behind. -/
structure Parsed where
  name : String
  top : Given
  sub : Given

/-- A command line that cannot be carried out, with the subcommand at which that was found. -/
structure Misfit where
  stop : Stop
  subcommand : Option String

/-- Reads a command line against the grammars. -/
def parseArguments (args : List String) : Except Misfit Parsed :=
  match topGrammar.read .empty false false args with
  | .error s => .error ⟨s, none⟩
  | .ok (_, none) => .error ⟨.usage, none⟩
  | .ok (top, some (name, rest)) =>
    if name = helpName then .error ⟨helpStop rest, none⟩
    else
      match (subGrammar name).read .empty false false rest with
      | .error s => .error ⟨s, some name⟩
      | .ok (sub, _) =>
        if (subGrammar name).fits sub && isComplete name sub && topGrammar.fits top then
          .ok ⟨name, top, sub⟩
        else .error ⟨.usage, some name⟩

/-- The invocation that a command line describes. The port is read before anything else is. -/
def Parsed.invocation (p : Parsed) : Except Failure Invocation := do
  let port ← numeral Text.readUInt16 (commonValue p.top p.sub "port")
  let command ← commandOf p.name p.sub
  return ⟨commonValue p.top p.sub "host", port, commonValue p.top p.sub "format" == "json", command⟩

end RadioScan.Terminal
