import RadioScan.Terminal.Run

/-!
# The command line tool

Reads the files that a command line names, runs it, and prints the outcome. This build has no
sockets, so a service is never reached, and it does not tell where a fault in a file is.
-/

open RadioScan Terminal

namespace RadioScan

/-- Reads a file, or tells why it cannot be read. -/
def readFile (path : String) : IO (Except SystemError String) := do
  try
    return .ok (← IO.FS.readFile path)
  catch
    | .noFileOrDirectory _ _ _ => return .error .notFound
    | .permissionDenied _ _ _ => return .error .permissionDenied
    | .inappropriateType _ code _ =>
      return .error (if code == 20 then .notDirectory else .isDirectory)
    | .invalidArgument _ _ _ => return .error .nameTooLong
    | e => return .error ⟨5, "Other", toString e⟩

/-- Whether an environment variable is set to something other than zero. -/
def isOn (name : String) : IO Bool := do
  return (← IO.getEnv name).any fun v => v != "0"

/-- Colours are forced by one variable and suppressed by others; else a terminal gets them. -/
def wantsColor : IO Bool := do
  if ← isOn "CLICOLOR_FORCE" then return true
  if (← IO.getEnv "NO_COLOR").isSome then return false
  if (← IO.getEnv "CLICOLOR") == some "0" then return false
  (← IO.getStdout).isTty

end RadioScan

def main (args : List String) : IO UInt32 := do
  let contents ← (pathsOf args).mapM fun path => do return (path, ← readFile path)
  let world : World :=
    { color := ← wantsColor
      files := fun path => (contents.lookup path).getD (.error .notFound)
      dial := fun _ _ => .failed .networkUnreachable
      notices := fun _ => ⟨.noValue, 0, 0⟩ }
  let outcome := run world args
  IO.print outcome.stdout
  if !outcome.stderr.isEmpty then IO.eprintln outcome.stderr
  return .ofNat outcome.exit
