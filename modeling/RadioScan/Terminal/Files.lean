import RadioScan.Terminal.Failure

/-!
# Files

Configurations and requests that are read from files. What a file holds is given by a function, so
that reading one is a matter of its contents alone.
-/

namespace RadioScan.Terminal

/-- The contents of files by path. -/
abbrev Files := String → Except SystemError String

/-- Reads the configuration in a file; without a file, the standard one. -/
def Files.config (files : Files) (notices : Json.Notices) : Option String → Except Failure Config
  | none => .ok .standard
  | some path =>
    match files path with
    | .error e => .error (.configFile path e)
    | .ok s =>
      match Format.configOfText s with
      | .error (.json fault) => .error (.configJson fault (notices s))
      | .error (.invalid e) => .error (.config e)
      | .ok c => .ok c

/-- Reads the requests in a file. -/
def Files.requests (files : Files) (notices : Json.Notices) (path : String) :
    Except Failure (List Request) :=
  match files path with
  | .error e => .error (.file e)
  | .ok s =>
    match Json.decodeText (Json.list Format.request.decode) s with
    | .error fault => .error (.json fault (notices s))
    | .ok requests => .ok requests

end RadioScan.Terminal
