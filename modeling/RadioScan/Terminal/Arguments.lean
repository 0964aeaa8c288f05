/-!
# Command line arguments

A command line is read against a grammar: options that take a value, flags, positional arguments,
and at most one subcommand, whose own arguments follow it. Values may stand in the next argument,
behind an equals sign, or, for a short option, right behind its letter.
-/

namespace RadioScan.Terminal

/-- Why a command line is not carried out. -/
inductive Stop
  /-- It does not fit the grammar. -/
  | usage
  | help
  | version
deriving DecidableEq

/-- An option with a value. -/
structure Opt where
  name : String
  short : Option Char
  /-- The value when none is given. -/
  standard : Option String
  /-- The values that it may have; none when any value will do. -/
  choices : List String

structure Grammar where
  options : List Opt
  flags : List String
  /-- The letter that asks for help, besides the long flag. -/
  helpLetter : Option Char
  positionals : Nat
  subcommands : List String

/-- Arguments as they were given. -/
structure Given where
  /-- Each use of an option with its value, if it has one; the last use first. -/
  options : List (String × Option String)
  flags : List String
  positionals : List String

namespace Given

def empty : Given := ⟨[], [], []⟩

/-- Gives the option used last its value. -/
def setValue (g : Given) (value : String) : Given :=
  match g.options with
  | (name, _) :: rest => { g with options := (name, some value) :: rest }
  | [] => g

end Given

/-- A text without the leading characters of one kind. -/
def dropLeading (c : Char) (s : List Char) : List Char := s.dropWhile (· == c)

/-- What one argument leads to: more arguments known, and whether a value is due. -/
abbrev Step := Except Stop (Given × Bool)

/-- Reads an argument that begins with two dashes. Flags take no notice of a value. -/
def Grammar.long (g : Grammar) (given : Given) (cs : List Char) : Step :=
  let cs := dropLeading '-' cs
  let name := String.ofList (cs.takeWhile (· != '='))
  let value : Option String :=
    match cs.dropWhile (· != '=') with
    | [] => none
    | rest => some (String.ofList (dropLeading '=' rest))
  if g.options.any fun o => o.name == name then
    .ok ({ given with options := (name, value) :: given.options }, value.isNone)
  else if name ∈ g.flags then .ok ({ given with flags := name :: given.flags }, false)
  else if name = "help" then .error .help
  else if name = "version" then .error .version
  else .error .usage

/-- Reads an argument that begins with one dash. -/
def Grammar.short (g : Grammar) (given : Given) : List Char → Step
  | [] => .ok (given, false)
  | c :: cs =>
    match g.options.find? fun o => o.short == some c with
    | some o =>
      let value := match cs with
        | [] => none
        | cs => some (String.ofList (dropLeading '=' cs))
      .ok ({ given with options := (o.name, value) :: given.options }, value.isNone)
    | none =>
      if g.helpLetter = some c then .error .help
      else if c = 'V' then .error .version
      else .error .usage

/-- Takes an argument that is neither an option nor a flag. -/
def Grammar.positional (g : Grammar) (given : Given) (arg : String) : Except Stop Given :=
  if given.positionals.length < g.positionals then
    .ok { given with positionals := given.positionals ++ [arg] }
  else .error .usage

/-- Reads arguments up to a subcommand, which is given along with what follows it. `due` says that
the option used last still wants its value; `plain`, that only positional arguments follow. -/
def Grammar.read (g : Grammar) (given : Given) (due plain : Bool) :
    List String → Except Stop (Given × Option (String × List String))
  | [] => .ok (given, none)
  | arg :: args =>
    if plain then do
      g.read (← g.positional given arg) due true args
    else if !due && g.subcommands.contains arg then .ok (given, some (arg, args))
    else if arg = "--" then g.read given due true args
    else
      match arg.toList with
      | '-' :: '-' :: cs => do
        let (given, due) ← g.long given cs
        g.read given due false args
      | '-' :: c :: cs => do
        let (given, due) ← g.short given (c :: cs)
        g.read given due false args
      | _ =>
        if due then g.read (given.setValue arg) false false args
        else do
          g.read (← g.positional given arg) false false args

/-- Whether an option was used at all. -/
def Given.uses (given : Given) (name : String) : Bool := given.options.any fun o => o.1 == name

/-- The value of an option, given or standard. -/
def Given.value? (given : Given) (o : Opt) : Option String :=
  match (given.options.find? fun use => use.1 == o.name).bind Prod.snd with
  | some v => some v
  | none => o.standard

/-- An option is used properly: at most once, with a value, and with one that it may have. -/
def Given.fits (given : Given) (o : Opt) : Bool :=
  (given.options.countP fun use => use.1 == o.name) ≤ 1 &&
    match given.value? o with
    | some v => o.choices.isEmpty || o.choices.contains v
    | none => !given.uses o.name

/-- All options are used properly, and no flag is given twice. -/
def Grammar.fits (g : Grammar) (given : Given) : Bool :=
  g.options.all given.fits && g.flags.all fun f => given.flags.count f ≤ 1

end RadioScan.Terminal
