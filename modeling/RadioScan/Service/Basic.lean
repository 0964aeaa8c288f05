import RadioScan.Control.Handler
import RadioScan.Text.Blank

/-!
# The service

Every connection is served by a task of its own, and all tasks share one registry. Serving a line
takes three steps, between which other tasks may take theirs: the line is handled, which also notes
the new schedule if it changed; the answer is written to the connection; the noted schedule is
announced to every connection.

A task ends with its connection when the client goes away. It ends early when a line cannot be read
or an answer cannot be written. Its connection stays open then, and announcements still reach it.
-/

namespace RadioScan

open Control (Message Response)

namespace Service

/-- What a task does next. -/
inductive Stage
  /-- Waits for a line. -/
  | ready
  /-- Has handled a line, and holds the answer and the schedule to announce. -/
  | replying (answer : Response) (update : Option Schedule)
  /-- Has written its answer, and holds the schedule to announce. -/
  | announcing (update : Schedule)
  /-- Has ended early. Nothing is read from the connection any more, and nothing is answered. -/
  | ended
deriving DecidableEq

/-- The stage behind an answer: a noted schedule is announced next. -/
def Stage.following : Option Schedule → Stage
  | none => ready
  | some schedule => announcing schedule

/-- A client's connection and the task that serves it. -/
structure Connection where
  name : String
  stage : Stage
  /-- The answers written so far, oldest first. -/
  replies : List String
  /-- How many announcements were made before it was opened. -/
  joined : Nat
deriving DecidableEq

def Connection.enter (stage : Stage) (c : Connection) : Connection := { c with stage }

def Connection.write (text : String) (c : Connection) : Connection :=
  { c with replies := c.replies ++ [text] }

end Service

/-- What the JSON library says of lines that are no messages, the registry, the open connections,
and the schedules announced so far, oldest first. -/
structure Service where
  notices : Json.Notices
  registry : Registry
  connections : List Service.Connection
  announced : List Schedule

namespace Service

def ofRegistry (notices : Json.Notices) (registry : Registry) : Service :=
  ⟨notices, registry, [], []⟩

def connect (s : Service) (name : String) : Service :=
  { s with connections := s.connections ++ [⟨name, .ready, [], s.announced.length⟩] }

def connection? (s : Service) (name : String) : Option Connection :=
  s.connections.find? fun c => c.name == name

/-- What the task of a connection does next. -/
def stage? (s : Service) (name : String) : Option Stage :=
  (s.connection? name).map Connection.stage

/-- Changes the connection of the given name. -/
def modify (s : Service) (name : String) (change : Connection → Connection) : Service :=
  { s with connections := s.connections.map fun c => if c.name == name then change c else c }

/-- The client goes away, which closes its connection. A task that is serving a line does that
first. -/
def disconnect (s : Service) (name : String) : Service :=
  match s.stage? name with
  | some .ready | some .ended =>
    { s with connections := s.connections.filter fun c => c.name != name }
  | _ => s

/-- A line cannot be read, or an answer cannot be written. What the task has noted is lost. -/
def fail (s : Service) (name : String) : Service :=
  match s.stage? name with
  | some .ready | some (.replying _ _) => s.modify name (Connection.enter .ended)
  | _ => s

/-- Handles a line: the answer, the registry after it, and its schedule if that has changed. -/
def answerLine (notices : Json.Notices) (r : Registry) (line : String) :
    Option (Response × Registry × Option Schedule) :=
  match Message.parse line with
  | .error e => some (.withMessage .invalidMessage (e.message (notices line)), r, none)
  | .ok m => do
    let (response, r') ← Control.answer r m
    let changed := r'.stats.scheduleChanges != r.stats.scheduleChanges
    return (response, r', if changed then some r'.schedule else none)

/-- The first step: a ready task handles a line. -/
def handle (s : Service) (name line : String) : Option Service :=
  match s.stage? name with
  | some .ready => do
    let (response, registry, update) ← answerLine s.notices s.registry line
    return { s with registry }.modify name (Connection.enter (.replying response update))
  | _ => some s

/-- The second step: the answer is written. The task ends early if the answer is too long. -/
def reply (s : Service) (name : String) : Service :=
  match s.stage? name with
  | some (.replying response update) =>
    match response.serialize with
    | .error _ => s.modify name (Connection.enter .ended)
    | .ok text => s.modify name fun c => (c.write text).enter (.following update)
  | _ => s

/-- The third step: the schedule is announced, likewise. -/
def announce (s : Service) (name : String) : Service :=
  match s.stage? name with
  | some (.announcing schedule) =>
    match (Response.scheduleUpdate schedule).serialize with
    | .error _ => s.modify name (Connection.enter .ended)
    | .ok _ =>
      { s with announced := s.announced ++ [schedule] }.modify name (Connection.enter .ready)
  | _ => s

/-- All three steps at once, for a line without the blanks at its ends; an empty line is passed
over. -/
def serve (s : Service) (name line : String) : Option Service :=
  let line := Text.trim line
  if line.isEmpty then some s else (s.handle name line).map fun s => (s.reply name).announce name

/-- Serves the lines of a text one after the other. -/
def serveAll (s : Service) (name : String) : List String → Option Service
  | [] => some s
  | line :: lines => do (← s.serve name line).serveAll name lines

/-- The line that announces a schedule. -/
def announcement (schedule : Schedule) : String := (Response.scheduleUpdate schedule).text

/-- The announcements made to a connection, which its client receives if it keeps up with them. -/
def pushes (s : Service) (c : Connection) : List String :=
  (s.announced.drop c.joined).map announcement

end Service

end RadioScan
