import RadioScan.Json.Pretty
import RadioScan.Terminal.Client
import RadioScan.Terminal.Command
import RadioScan.Terminal.Files
import RadioScan.Terminal.Report

/-!
# Running commands

A run turns a command line into what is printed and sent. What it needs of the outside, the contents
of files, the answers of a service and what the JSON library says of a text, is given to it.
-/

namespace RadioScan.Terminal

/-- The world that a command runs in. -/
structure World where
  color : Bool
  files : Files
  dial : String → UInt16 → Dial
  notices : Json.Notices

/-- What a run leaves behind. -/
structure Outcome where
  exit : Nat
  stdout : String
  stderr : String
  /-- The line sent to the service, if there was a connection. -/
  sent : Option String
deriving DecidableEq

/-- The name of the tool, as it tells its version. -/
def toolName : String := "scanbus"

def toolVersion : String := "0.1.0"

/-- Computes and reports a schedule. -/
def plan (w : World) (json : Bool) (requests : String) (config : Option String) :
    Except Failure String := do
  let c ← w.files.config w.notices config
  let rs ← w.files.requests w.notices requests
  match Scheduler.ofConfig? c with
  | .error e => throw (.config e)
  | .ok s =>
    let s := s.update rs
    if json then return (Format.schedule.encode s.schedule).pretty ++ "\n"
    else return unlines (planLines w.color s rs)

/-- A response as it is printed. -/
def showResponse (w : World) (json : Bool) (r : Control.Response) : String :=
  if json then (Control.Response.format.encode r).pretty ++ "\n"
  else unlines (responseLines w.color r)

/-- What a command prints. -/
def Invocation.output (i : Invocation) (w : World) : Except Failure String :=
  match i.command with
  | .plan requests config => plan w i.json requests config
  | .periods =>
    .ok <|
      if i.json then
        (Format.ofList Format.ofUInt32 PeriodTable.standard.entries).compact ++ "\n"
      else unlines (periodLines w.color .standard)
  | .channels b =>
    .ok <|
      if i.json then (Format.ofFrequencies (Catalog.standard.expandBand b)).compact ++ "\n"
      else unlines (channelLines w.color .standard b)
  | .send _ => (exchange w.notices (w.dial i.host i.port)).map (showResponse w i.json)

/-- The line that an invocation sends, if it reaches a service. -/
def Invocation.sent? (i : Invocation) (w : World) : Option String :=
  match i.command, w.dial i.host i.port with
  | .send m, .connected _ => some (messageLine m)
  | _, _ => none

/-- The outcome of something that prints or fails. -/
def Outcome.of (result : Except Failure String) (sent : Option String) : Outcome :=
  match result with
  | .ok stdout => ⟨0, stdout, "", sent⟩
  | .error e => ⟨1, "", e.text, sent⟩

/-- The outcome of a command line that is not carried out. -/
def Misfit.outcome (m : Misfit) : Outcome :=
  match m.stop with
  | .usage => ⟨1, "", (Failure.stop .usage).text, none⟩
  | .help => ⟨0, "", "", none⟩
  | .version =>
    match m.subcommand with
    | none => ⟨0, toolName ++ " " ++ toolVersion ++ "\n", "", none⟩
    | some name => ⟨0, toolName ++ "-" ++ name ++ " \n", "", none⟩

/-- The files that an invocation reads. -/
def Invocation.paths (i : Invocation) : List String :=
  match i.command with
  | .plan requests config => config.toList ++ [requests]
  | _ => []

/-- The files that a command line reads. -/
def pathsOf (args : List String) : List String :=
  match parseArguments args with
  | .error _ => []
  | .ok p =>
    match p.invocation with
    | .error _ => []
    | .ok i => i.paths

/-- Runs a command line. -/
def run (w : World) (args : List String) : Outcome :=
  match parseArguments args with
  | .error m => m.outcome
  | .ok p =>
    match p.invocation with
    | .error e => .of (.error e) none
    | .ok i => .of (i.output w) (i.sent? w)

end RadioScan.Terminal
