import RadioScan.Service.Basic
import RadioScan.Terminal.Files

/-!
# Starting the service

The service is started with an address to listen on and possibly a configuration file. It ends at
once when it cannot take these over.
-/

namespace RadioScan.Service

open Terminal (Opt Grammar Failure Files)

def bindOption : Opt := ⟨"bind", some 'b', some "127.0.0.1", []⟩

def portOption : Opt := ⟨"port", some 'p', some "7070", []⟩

def configOption : Opt := ⟨"config", some 'c', none, []⟩

def grammar : Grammar := ⟨[bindOption, portOption, configOption], [], some 'h', 0, []⟩

/-- A service that is about to listen. -/
structure Start where
  address : String
  service : Service

/-- Starts the service, or tells why not. -/
def start (files : Files) (notices : Json.Notices) (args : List String) :
    Except Failure Start := do
  let given ← match grammar.read .empty false false args with
    | .error s => throw (.stop s)
    | .ok (given, _) => pure given
  if !grammar.fits given then throw (.stop .usage)
  let config ← files.config notices (given.value? configOption)
  match Registry.ofConfig? config with
  | .error e => throw (.config e)
  | .ok registry =>
    return ⟨(given.value? bindOption).getD "" ++ ":" ++ (given.value? portOption).getD "",
      ofRegistry notices registry⟩

end RadioScan.Service
